import Army3.Protocol.PyStr
import Army3.Framework.PathWalk

/-! The strings and paths of the client tools: `str` methods, and `pathlib` with POSIX names. -/

namespace Army3

open Files

namespace PyStr

def lit (text : String) : PyStr := ofChars text.toList

/-- `str(value)` of a natural number. -/
def ofNat (value : Nat) : PyStr := ofChars (Nat.toDigits 10 value)

/-- `char.isspace()`. -/
def isSpace (c : CodePoint) : Bool :=
  (9 ≤ c.val && c.val ≤ 13) || (0x1c ≤ c.val && c.val ≤ 0x20) || c.val == 0x85 || c.val == 0xa0 ||
    c.val == 0x1680 || (0x2000 ≤ c.val && c.val ≤ 0x200a) || c.val == 0x2028 || c.val == 0x2029 ||
    c.val == 0x202f || c.val == 0x205f || c.val == 0x3000

def isLineBreak (c : CodePoint) : Bool :=
  (10 ≤ c.val && c.val ≤ 13) || (0x1c ≤ c.val && c.val ≤ 0x1e) || c.val == 0x85 ||
    c.val == 0x2028 || c.val == 0x2029

def lineFeed : CodePoint := 10

def carriageReturn : CodePoint := 13

/-- What reading in text mode makes of `\r\n` and `\r`. -/
def universalNewlines : PyStr → PyStr
  | [] => []
  | [c] => [if c = carriageReturn then lineFeed else c]
  | c :: d :: rest =>
    if c = carriageReturn then
      if d = lineFeed then lineFeed :: universalNewlines rest
      else lineFeed :: universalNewlines (d :: rest)
    else c :: universalNewlines (d :: rest)

theorem universalNewlines_cons_of_ne {c : CodePoint} {rest : PyStr} (h : c ≠ carriageReturn) :
    universalNewlines (c :: rest) = c :: universalNewlines rest := by
  cases rest with
  | nil => simp [universalNewlines, h]
  | cons d rest => simp [universalNewlines, h]

/-- `text.splitlines()`. -/
def splitLines (text : PyStr) : List PyStr :=
  let lines := (universalNewlines text).splitOnP isLineBreak
  if lines.getLast? = some [] then lines.dropLast else lines

/-- `text.split(maxsplit=1)` where it gives two parts; the second keeps its trailing blanks. -/
def splitOnce (text : PyStr) : Option (PyStr × PyStr) :=
  let first := text.dropWhile isSpace
  let word := first.takeWhile (!isSpace ·)
  let remainder := (first.dropWhile (!isSpace ·)).dropWhile isSpace
  if word = [] ∨ remainder = [] then none else some (word, remainder)

/-- `a <= b` -/
def le (a b : PyStr) : Bool := !List.lex b a fun x y => x.val < y.val

/-- `text.lower()` on ASCII letters; no other character lowers to a hexadecimal digit. -/
def lower (text : PyStr) : PyStr :=
  text.map fun c => if 65 ≤ c.val ∧ c.val ≤ 90 then c + 32 else c

/-- `text.upper()` on ASCII letters. -/
def upper (text : PyStr) : PyStr :=
  text.map fun c => if 97 ≤ c.val ∧ c.val ≤ 122 then c - 32 else c

end PyStr

def hexDigits : PyStr := PyStr.ofChars ['0', '1', '2', '3', '4', '5', '6', '7', '8', '9', 'a', 'b',
  'c', 'd', 'e', 'f']

/-- A lowercase SHA-256 value. -/
def IsSha256 (value : PyStr) : Prop := value.length = 64 ∧ ∀ c ∈ value, c ∈ hexDigits

-- The search for an instance would run through every code point.
instance (value : PyStr) : Decidable (IsSha256 value) :=
  decidable_of_iff (value.length = 64 ∧ value.all (· ∈ hexDigits)) (by simp [IsSha256])

def space : CodePoint := 0x20

def slash : CodePoint := 0x2f

def dot : CodePoint := 0x2e

def star : CodePoint := 0x2a

def backslash : CodePoint := 0x5c

def colon : CodePoint := 0x3a

/-- The name of an entry of a directory. -/
structure FileName where
  text : PyStr
  valid : text ≠ [] ∧ slash ∉ text ∧ text ≠ [dot] ∧ text ≠ [dot, dot]
  deriving DecidableEq, Repr

instance (path : List FileName) (paths : List (List FileName)) : Decidable (path ∈ paths) :=
  inferInstance

/-- A `PurePosixPath`: the root (empty, `/` or `//`) and the parts that follow. -/
structure PurePosixPath where
  root : PyStr
  parts : List (Step FileName)
  deriving DecidableEq, Repr

namespace PurePosixPath

/-- A component between two slashes; empty ones and `.` are dropped. -/
def part? (piece : PyStr) : Option (Step FileName) :=
  if piece = [dot, dot] then some .up
  else if h : piece ≠ [] ∧ slash ∉ piece ∧ piece ≠ [dot] ∧ piece ≠ [dot, dot] then
    some (.down ⟨piece, h⟩)
  else none

/-- `PurePosixPath(text)`. -/
def parse (text : PyStr) : PurePosixPath where
  root :=
    let slashes := (text.takeWhile (· == slash)).length
    if slashes = 0 then [] else if slashes = 2 then [slash, slash] else [slash]
  parts := (text.splitOnP (· == slash)).filterMap part?

/-- The names of a path that is neither absolute nor has `..` among its parts. -/
def safeNames? (path : PurePosixPath) : Option (List FileName) :=
  if path.root ≠ [] then none
  else path.parts.mapM fun part =>
    match part with
    | .down name => some name
    | _ => none

def partText : Step FileName → PyStr
  | .here => [dot]
  | .up => [dot, dot]
  | .down name => name.text

/-- `str(path)`. -/
def str (path : PurePosixPath) : PyStr :=
  if path.root = [] ∧ path.parts = [] then [dot]
  else path.root ++ [slash].intercalate (path.parts.map partText)

/-- The relative path of these names. -/
def relative (names : List FileName) : PurePosixPath := ⟨[], down names⟩

/-- The absolute path of these names. -/
def absolute (names : List FileName) : PurePosixPath := ⟨[slash], down names⟩

end PurePosixPath

end Army3
