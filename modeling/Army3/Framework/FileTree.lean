import Mathlib.Data.List.Infix
import Mathlib.Data.List.Nodup

/-! File trees: what stands at which path, and the one way in which every file operation changes
a tree, replacing the branch at a path. -/

namespace Files

variable {ν δ : Type}

/-- A step of a path: `.`, `..` or a name. -/
inductive Step (ν : Type) where
  | here
  | up
  | down (name : ν)
  deriving DecidableEq, Repr

/-- A link holds the path it leads to, from the root or from its own directory. -/
inductive Node (ν δ : Type) where
  | file (data : δ)
  | directory
  | link (absolute : Bool) (target : List (Step ν))
  deriving DecidableEq, Repr

namespace Node

def IsLink (node : Node ν δ) : Prop :=
  match node with
  | .link _ _ => True
  | _ => False

theorem IsLink.ne_directory {node : Node ν δ} (h : node.IsLink) : node ≠ .directory := by
  cases node with
  | file data => exact absurd h id
  | directory => exact absurd h id
  | link absolute target => simp

end Node

variable [DecidableEq ν]

/-- What stands at a path and below it; nothing at all if there are no entries. Every entry but
the top one lies in a directory. -/
structure Branch (ν δ : Type) [DecidableEq ν] where
  entries : List (List ν × Node ν δ)
  nodup : (entries.map Prod.fst).Nodup
  rooted : ∀ entry ∈ entries, entry.1 ≠ [] →
    entries.lookup entry.1.dropLast = some .directory

namespace Branch

/-- The node at a path below the top, not following links. -/
def node? (b : Branch ν δ) (path : List ν) : Option (Node ν δ) := b.entries.lookup path

def empty : Branch ν δ := ⟨[], by simp, by simp⟩

def single (node : Node ν δ) : Branch ν δ := ⟨[([], node)], by simp, by simp⟩

def LinkFree (b : Branch ν δ) : Prop := ∀ path node, b.node? path = some node → ¬ node.IsLink


end Branch

theorem lookup_of_mem {α β : Type} [BEq α] [LawfulBEq α] {entries : List (α × β)} {key : α}
    {value : β} (hnodup : (entries.map Prod.fst).Nodup) (hmem : (key, value) ∈ entries) :
    entries.lookup key = some value := by
  induction entries with
  | nil => cases hmem
  | cons entry entries ih =>
    obtain ⟨first, node⟩ := entry
    rw [List.map_cons, List.nodup_cons] at hnodup
    rcases List.mem_cons.mp hmem with heq | hrest
    · obtain ⟨rfl, rfl⟩ := Prod.mk.inj heq
      exact List.lookup_cons_self
    · have hne : (key == first) = false := by
        rw [beq_eq_false_iff_ne]
        intro heq
        have hkey : key ∈ entries.map Prod.fst := List.mem_map.mpr ⟨_, hrest, rfl⟩
        exact hnodup.1 (heq ▸ hkey)
      rw [List.lookup_cons, hne]
      exact ih hnodup.2 hrest

/-- The entries that are not at or below `dst`. -/
def outside (dst : List ν) (entries : List (List ν × Node ν δ)) : List (List ν × Node ν δ) :=
  entries.filter fun entry => ¬ dst <+: entry.1

/-- The entries as seen from above `dst`. -/
def lifted (dst : List ν) (entries : List (List ν × Node ν δ)) : List (List ν × Node ν δ) :=
  entries.map fun entry => (dst ++ entry.1, entry.2)

/-- The entries at and below `src`, as seen from there. -/
def within (src : List ν) (entries : List (List ν × Node ν δ)) : List (List ν × Node ν δ) :=
  entries.filterMap fun entry =>
    if src <+: entry.1 then some (entry.1.drop src.length, entry.2) else none

variable {dst p r : List ν} {entries : List (List ν × Node ν δ)}

theorem lookup_outside_inside (h : dst <+: p) : (outside dst entries).lookup p = none := by
  rw [List.lookup_eq_none_iff]
  intro entry hentry
  have hout : ¬ dst <+: entry.1 := by simpa using (List.mem_filter.mp hentry).2
  have hne : p ≠ entry.1 := by
    intro heq
    exact hout (heq ▸ h)
  simpa using hne

theorem lookup_outside (h : ¬ dst <+: p) : (outside dst entries).lookup p = entries.lookup p := by
  induction entries with
  | nil => rfl
  | cons entry entries ih =>
    obtain ⟨key, node⟩ := entry
    unfold outside at ih ⊢
    by_cases hkey : p = key
    · subst hkey
      rw [List.filter_cons_of_pos (by simpa using h), List.lookup_cons_self, List.lookup_cons_self]
    · have hbeq : (p == key) = false := by simpa using hkey
      by_cases hout : dst <+: key
      · rw [List.filter_cons_of_neg (by simpa using hout), ih, List.lookup_cons, hbeq]
      · rw [List.filter_cons_of_pos (by simpa using hout), List.lookup_cons, List.lookup_cons,
          hbeq, ih]

theorem lookup_lifted : (lifted dst entries).lookup (dst ++ r) = entries.lookup r := by
  induction entries with
  | nil => rfl
  | cons entry entries ih =>
    have hbeq : (dst ++ r == dst ++ entry.1) = (r == entry.1) := by
      rw [Bool.eq_iff_iff]
      simp
    unfold lifted at ih ⊢
    rw [List.map_cons, List.lookup_cons, List.lookup_cons, hbeq, ih]

theorem lookup_lifted_outside (h : ¬ dst <+: p) : (lifted dst entries).lookup p = none := by
  rw [List.lookup_eq_none_iff]
  intro entry hentry
  obtain ⟨low, -, rfl⟩ := List.mem_map.mp hentry
  have hne : p ≠ dst ++ low.1 := by
    intro heq
    exact h (heq ▸ List.prefix_append dst low.1)
  simpa using hne

theorem lookup_within : (within dst entries).lookup r = entries.lookup (dst ++ r) := by
  induction entries with
  | nil => rfl
  | cons entry entries ih =>
    obtain ⟨key, node⟩ := entry
    unfold within at ih ⊢
    by_cases hin : dst <+: key
    · obtain ⟨low, rfl⟩ := hin
      have hbeq : (dst ++ r == dst ++ low) = (r == low) := by
        rw [Bool.eq_iff_iff]
        simp
      rw [List.filterMap_cons_some (b := (low, node)) (by simp), List.lookup_cons,
        List.lookup_cons, hbeq, ih]
    · have hbeq : (dst ++ r == key) = false := by
        have hne : dst ++ r ≠ key := by
          intro heq
          exact hin (heq ▸ List.prefix_append dst r)
        simpa using hne
      rw [List.filterMap_cons_none (by simp [hin]), ih, List.lookup_cons, hbeq]

theorem nodup_outside (h : (entries.map Prod.fst).Nodup) :
    ((outside dst entries).map Prod.fst).Nodup :=
  h.sublist (List.filter_sublist.map Prod.fst)

omit [DecidableEq ν] in
theorem nodup_lifted (h : (entries.map Prod.fst).Nodup) :
    ((lifted dst entries).map Prod.fst).Nodup := by
  have hkeys : (lifted dst entries).map Prod.fst = (entries.map Prod.fst).map (dst ++ ·) := by
    simp [lifted]
  rw [hkeys]
  exact List.Nodup.map (List.append_right_injective dst) h

theorem nodup_within (h : (entries.map Prod.fst).Nodup) :
    ((within dst entries).map Prod.fst).Nodup := by
  have hkeys : (within dst entries).map Prod.fst = (entries.map Prod.fst).filterMap fun key =>
      if dst <+: key then some (key.drop dst.length) else none := by
    unfold within
    rw [List.map_filterMap, List.filterMap_map]
    congr 1
    funext entry
    by_cases hin : dst <+: entry.1 <;> simp [hin]
  rw [hkeys]
  apply List.Nodup.filterMap _ h
  intro first second low hfirst hsecond
  by_cases hin : dst <+: first
  · by_cases hin' : dst <+: second
    · obtain ⟨one, rfl⟩ := hin
      obtain ⟨other, rfl⟩ := hin'
      have hone : one = low := by simpa using hfirst
      have hother : other = low := by simpa using hsecond
      rw [hone, hother]
    · simp [hin'] at hsecond
  · simp [hin] at hfirst

omit [DecidableEq ν] in
theorem not_prefix_dropLast (h : ¬ dst <+: p) : ¬ dst <+: p.dropLast := by
  intro hpre
  exact h (hpre.trans (List.dropLast_prefix p))

omit [DecidableEq ν] in
theorem not_prefix_dropLast_self (h : dst ≠ []) : ¬ dst <+: dst.dropLast := by
  intro hpre
  have hlen := hpre.length_le
  have hpos := List.length_pos_of_ne_nil h
  rw [List.length_dropLast] at hlen
  omega

namespace Branch

variable {b : Branch ν δ}

theorem node?_single {node : Node ν δ} :
    (single node).node? p = if p = [] then some node else none := by
  change List.lookup p [([], node)] = _
  by_cases hp : p = []
  · rw [hp, if_pos rfl, List.lookup_cons_self]
  · have hbeq : (p == []) = false := by simpa using hp
    rw [if_neg hp, List.lookup_cons, hbeq, List.lookup_nil]

theorem mem_entries_of_node? {node : Node ν δ} (h : b.node? p = some node) :
    (p, node) ∈ b.entries := by
  obtain ⟨before, after, heq, -⟩ := List.lookup_eq_some_iff.mp h
  rw [heq]
  simp

theorem mem_entries_iff {node : Node ν δ} : (p, node) ∈ b.entries ↔ b.node? p = some node :=
  ⟨lookup_of_mem b.nodup, mem_entries_of_node?⟩

def isLink : Node ν δ → Bool
  | .link _ _ => true
  | _ => false

theorem all_isLink_iff : (b.entries.all fun entry => !isLink entry.2) ↔ b.LinkFree := by
  rw [List.all_eq_true]
  constructor
  · intro hall low node hnode hlink
    have hentry := hall _ (mem_entries_iff.mpr hnode)
    cases node with
    | file data => exact hlink
    | directory => exact hlink
    | link absolute target => cases hentry
  · intro hfree entry hentry
    obtain ⟨low, node⟩ := entry
    have hlink := hfree low node (mem_entries_iff.mp hentry)
    cases node with
    | file data => rfl
    | directory => rfl
    | link absolute target => exact absurd trivial hlink

instance : Decidable b.LinkFree := decidable_of_iff _ all_isLink_iff

theorem node?_isSome_of_mem {entry : List ν × Node ν δ} (h : entry ∈ b.entries) :
    (b.node? entry.1).isSome := by
  unfold node?
  rw [List.lookup_isSome_iff]
  exact ⟨entry, h, beq_self_eq_true entry.1⟩

theorem node?_dropLast (h : (b.node? p).isSome) (hne : p ≠ []) :
    b.node? p.dropLast = some .directory := by
  obtain ⟨node, hnode⟩ := Option.isSome_iff_exists.mp h
  exact b.rooted (p, node) (mem_entries_of_node? hnode) hne

/-- Whatever has something below it is a directory. -/
theorem node?_of_append (h : (b.node? (p ++ r)).isSome) (hne : r ≠ []) :
    b.node? p = some .directory := by
  induction r using List.reverseRecOn with
  | nil => exact absurd rfl hne
  | append_singleton r name ih =>
    have hparent := node?_dropLast h (by simp)
    rw [← List.append_assoc, List.dropLast_concat] at hparent
    by_cases hr : r = []
    · rw [hr, List.append_nil] at hparent
      exact hparent
    · exact ih (by rw [hparent]; rfl) hr

theorem node?_append_of_none (h : b.node? p = none) : b.node? (p ++ r) = none := by
  rw [← Option.not_isSome_iff_eq_none]
  intro hsome
  by_cases hr : r = []
  · rw [hr, List.append_nil, h] at hsome
    cases hsome
  · rw [node?_of_append hsome hr] at h
    cases h

/-- The branch at a path. -/
def below (b : Branch ν δ) (src : List ν) : Branch ν δ where
  entries := within src b.entries
  nodup := nodup_within b.nodup
  rooted := by
    intro entry hentry hne
    obtain ⟨high, hhigh, hstrip⟩ := List.mem_filterMap.mp hentry
    by_cases hin : src <+: high.1
    · rw [if_pos hin] at hstrip
      obtain rfl := Option.some.inj hstrip
      obtain ⟨low, hlow⟩ := hin
      have hdrop : high.1.drop src.length = low := by rw [← hlow, List.drop_left]
      simp only [hdrop] at hne ⊢
      have hparent := b.rooted high hhigh (by simp [← hlow, hne])
      rw [← hlow, List.dropLast_append_of_ne_nil hne] at hparent
      rw [lookup_within]
      exact hparent
    · rw [if_neg hin] at hstrip
      cases hstrip

@[simp] theorem node?_below (src : List ν) : (b.below src).node? r = b.node? (src ++ r) :=
  lookup_within

end Branch

/-- A whole file system: the top of the branch is the root directory. -/
structure Tree (ν δ : Type) [DecidableEq ν] extends Branch ν δ where
  root : toBranch.node? [] = some .directory

namespace Tree

/-- A branch can stand at `dst`: its parent is a directory. -/
def Hosts (t : Tree ν δ) (dst : List ν) : Prop :=
  dst ≠ [] ∧ t.node? dst.dropLast = some .directory

instance [DecidableEq δ] (t : Tree ν δ) (dst : List ν) : Decidable (t.Hosts dst) := by
  unfold Hosts
  infer_instance

/-- With a branch in place of what was at `dst`. -/
def graft (t : Tree ν δ) (dst : List ν) (b : Branch ν δ) (h : t.Hosts dst) : Tree ν δ where
  entries := outside dst t.entries ++ lifted dst b.entries
  nodup := by
    rw [List.map_append, List.nodup_append]
    refine ⟨nodup_outside t.nodup, nodup_lifted b.nodup, ?_⟩
    intro kept hkept added hadded heq
    obtain ⟨old, hold, rfl⟩ := List.mem_map.mp hkept
    obtain ⟨new, hnew, rfl⟩ := List.mem_map.mp hadded
    obtain ⟨low, -, rfl⟩ := List.mem_map.mp hnew
    have hout : ¬ dst <+: old.1 := by simpa using (List.mem_filter.mp hold).2
    exact hout (heq ▸ List.prefix_append dst low.1)
  rooted := by
    intro entry hentry hne
    rw [List.lookup_append]
    rcases List.mem_append.mp hentry with hold | hnew
    · have hout : ¬ dst <+: entry.1 := by simpa using (List.mem_filter.mp hold).2
      have hmem : entry ∈ t.entries := (List.mem_filter.mp hold).1
      rw [lookup_outside (not_prefix_dropLast hout), t.rooted entry hmem hne]
      rfl
    · obtain ⟨low, hlow, rfl⟩ := List.mem_map.mp hnew
      by_cases htop : low.1 = []
      · simp only [htop, List.append_nil]
        have hparent : t.entries.lookup dst.dropLast = some .directory := h.2
        rw [lookup_outside (not_prefix_dropLast_self h.1), hparent]
        rfl
      · have hparent := b.rooted low hlow htop
        rw [List.dropLast_append_of_ne_nil htop,
          lookup_outside_inside (List.prefix_append dst _), lookup_lifted, hparent]
        rfl
  root := by
    have hout : ¬ dst <+: [] := by simpa using h.1
    have hroot : t.entries.lookup [] = some .directory := t.root
    unfold Branch.node?
    rw [List.lookup_append, lookup_outside hout, hroot]
    rfl

/-- Puts a branch in place of what is at `dst`; nothing happens where no branch can stand. -/
def replace [DecidableEq δ] (t : Tree ν δ) (dst : List ν) (b : Branch ν δ) : Tree ν δ :=
  if h : t.Hosts dst then t.graft dst b h else t

theorem hosts_of_node? {t : Tree ν δ} (h : (t.node? dst).isSome) (hne : dst ≠ []) : t.Hosts dst :=
  ⟨hne, Branch.node?_dropLast h hne⟩

section

variable [DecidableEq δ] {t : Tree ν δ} {b : Branch ν δ}

theorem node?_replace (h : t.Hosts dst) : (t.replace dst b).node? (dst ++ r) = b.node? r := by
  unfold replace
  rw [dif_pos h]
  unfold graft Branch.node?
  rw [List.lookup_append, lookup_outside_inside (List.prefix_append dst r), lookup_lifted]
  rfl

theorem node?_replace_self (h : t.Hosts dst) : (t.replace dst b).node? dst = b.node? [] := by
  have hnode := @node?_replace _ _ _ dst [] _ t b h
  rwa [List.append_nil] at hnode

/-- The frame: everything that is not at or below `dst` stays as it is. -/
theorem node?_replace_outside (h : ¬ dst <+: p) :
    (t.replace dst b).node? p = t.node? p := by
  unfold replace
  by_cases hhosts : t.Hosts dst
  · rw [dif_pos hhosts]
    unfold graft Branch.node?
    rw [List.lookup_append, lookup_outside h, lookup_lifted_outside h, Option.or_none]
  · rw [dif_neg hhosts]

/-- Below a place where nothing is put, nothing is left. -/
theorem node?_replace_empty (hne : dst ≠ []) :
    (t.replace dst .empty).node? (dst ++ r) = none := by
  by_cases hhosts : t.Hosts dst
  · rw [node?_replace hhosts]
    rfl
  · have hnone : t.node? dst = none := by
      rw [← Option.not_isSome_iff_eq_none]
      exact fun hsome => hhosts (hosts_of_node? hsome hne)
    unfold replace
    rw [dif_neg hhosts]
    exact Branch.node?_append_of_none hnone

/-- One node in place of a branch: nothing stands below it. -/
theorem node?_replace_single {node : Node ν δ} (h : t.Hosts dst) :
    (t.replace dst (.single node)).node? p =
      if p = dst then some node else if dst <+: p then none else t.node? p := by
  by_cases hin : dst <+: p
  · obtain ⟨low, rfl⟩ := hin
    rw [node?_replace h, Branch.node?_single]
    by_cases hlow : low = []
    · simp [hlow]
    · simp [hlow]
  · have hne : p ≠ dst := by
      intro heq
      exact hin (heq ▸ List.prefix_refl p)
    rw [node?_replace_outside hin, if_neg hne, if_neg hin]

end

end Tree

end Files
