import Army3.Protocol.FrameLimits

namespace Army3
namespace FrameStreamDecoder

/-- `feed(chunk)` for one chunk after the other, up to the first exception: what the caller
has in hand. -/
def deliveredBatch (d : FrameStreamDecoder) : List Bytes → List Packet
  | [] => []
  | chunk :: chunks =>
    match d.feed chunk none with
    | (.error _, _) => []
    | (.ok packets, d') => packets ++ deliveredBatch d' chunks

/-- `feed(chunk, max_packets=1)`, then `feed(b"", max_packets=1)` until nothing comes back. -/
@[semireducible]
def feedOnes (d : FrameStreamDecoder) (chunk : Bytes) :
    List Packet × Except PyError FrameStreamDecoder :=
  match _h : d.feed chunk (some 1) with
  | (.error e, _) => ([], .error e)
  | (.ok [], d') => ([], .ok d')
  | (.ok (packet :: packets), d') =>
    let more := feedOnes d' []
    (packet :: packets ++ more.1, more.2)
termination_by d.buffer.length + chunk.length
decreasing_by
  have hshorter := feed_one_shorter _h
  simpa using hshorter

def deliveredOnes (d : FrameStreamDecoder) : List Bytes → List Packet
  | [] => []
  | chunk :: chunks =>
    match d.feedOnes chunk with
    | (packets, .error _) => packets
    | (packets, .ok d') => packets ++ deliveredOnes d' chunks

/-- The packets the raising batch call had decoded; its caller never sees them. -/
def lostBatch (d : FrameStreamDecoder) : List Bytes → List Packet
  | [] => []
  | chunk :: chunks =>
    let run := d.feedRun chunk none
    match run.error with
    | some _ => run.packets
    | none => lostBatch run.decoder chunks

/-- Asking for one packet at a time runs the frame machine until it waits or halts. -/
theorem feedOnes_spec (d : FrameStreamDecoder) (chunk : Bytes) (before : List Packet) :
    ∃ cursor rest, d.machine.Settles ((d.cursor, before), d.buffer ++ chunk)
        ((cursor, before ++ (d.feedOnes chunk).1), rest) ∧
      (((d.feedOnes chunk).2 = .ok { d with cursor := cursor, buffer := rest } ∧
          d.machine.step (cursor, before ++ (d.feedOnes chunk).1) rest = .wait) ∨
        ∃ e size s rest', (d.feedOnes chunk).2 = .error e ∧
          d.machine.step (cursor, before ++ (d.feedOnes chunk).1) rest = .halt size s rest') := by
  fun_induction feedOnes d chunk generalizing before with
  | case1 d chunk e d' h =>
    rw [feed_one] at h
    cases hs : scanFrame d.direction d.maxPayloadBytes d.cursor (d.buffer ++ chunk) with
    | more => rw [hs] at h; cases h
    | frame packet cursor rest => rw [hs] at h; cases h
    | oversized size =>
      have hhalt : d.machine.step (d.cursor, before) (d.buffer ++ chunk) =
          .halt size (d.cursor, before) (d.buffer ++ chunk) := by
        simp only [machine, frameMachine, hs]
      rw [List.append_nil]
      exact ⟨_, _, ⟨PrefixMachine.Reaches.refl _, PrefixMachine.settled_of_halt hhalt⟩,
        .inr ⟨e, size, _, _, rfl, hhalt⟩⟩
  | case2 d chunk d' h =>
    rw [feed_one] at h
    cases hs : scanFrame d.direction d.maxPayloadBytes d.cursor (d.buffer ++ chunk) with
    | oversized size => rw [hs] at h; cases h
    | frame packet cursor rest => rw [hs] at h; cases h
    | more =>
      rw [hs] at h
      cases h
      have hwait : d.machine.step (d.cursor, before) (d.buffer ++ chunk) = .wait := by
        simp only [machine, frameMachine, hs]
      rw [List.append_nil]
      exact ⟨_, _, ⟨PrefixMachine.Reaches.refl _, PrefixMachine.settled_of_wait hwait⟩,
        .inl ⟨rfl, hwait⟩⟩
  | case3 d chunk packet packets d' h more ih =>
    rw [feed_one] at h
    cases hs : scanFrame d.direction d.maxPayloadBytes d.cursor (d.buffer ++ chunk) with
    | more => rw [hs] at h; cases h
    | oversized size => rw [hs] at h; cases h
    | frame packet' cursor rest =>
      rw [hs] at h
      cases h
      have hnext : d.machine.step (d.cursor, before) (d.buffer ++ chunk) =
          .next (cursor, before ++ [packet]) rest := by
        simp only [machine, frameMachine, hs]
      obtain ⟨cursor', rest', hsettles, hend⟩ := ih (before ++ [packet])
      simp only [List.append_nil, List.append_assoc] at hsettles hend
      refine ⟨cursor', rest', ?_, hend⟩
      exact (PrefixMachine.Reaches.of_step hnext).settles hsettles

theorem machine_eq_of_limits {d d' : FrameStreamDecoder} (hdir : d'.direction = d.direction)
    (hmax : d'.maxPayloadBytes = d.maxPayloadBytes) : d'.machine = d.machine := by
  rw [machine, hdir, hmax]
  rfl

theorem deliveredOnes_serves (d : FrameStreamDecoder) (chunks : List Bytes)
    (before : List Packet) :
    ∃ cursor rest, d.machine.Serves ((d.cursor, before), d.buffer) chunks
      ((cursor, before ++ d.deliveredOnes chunks), rest) := by
  induction chunks generalizing d before with
  | nil =>
    rw [deliveredOnes, List.append_nil]
    exact ⟨_, _, .nil _⟩
  | cons chunk chunks ih =>
    obtain ⟨cursor, rest, hsettles, hend⟩ := feedOnes_spec d chunk before
    unfold deliveredOnes
    generalize d.feedOnes chunk = result at hsettles hend
    obtain ⟨packets, last⟩ := result
    simp only at hsettles hend
    rcases hend with ⟨rfl, hwait⟩ | ⟨e, size, s, rest', rfl, hhalt⟩
    · obtain ⟨cursor', rest', hserves⟩ := ih { d with cursor := cursor, buffer := rest }
        (before ++ packets)
      rw [List.append_assoc] at hserves
      exact ⟨cursor', rest', .wait hsettles hwait hserves⟩
    · exact ⟨cursor, rest, .halt hsettles hhalt⟩

/-- The batch calls run the machine as well. They end waiting, or in a call that found the bad
header: before it everything was delivered, and what it had decoded is lost. -/
theorem deliveredBatch_serves {d : FrameStreamDecoder} (chunks : List Bytes)
    {before : List Packet} (hwait : d.machine.step (d.cursor, before) d.buffer = .wait) :
    ∃ cursor rest, d.machine.Serves ((d.cursor, before), d.buffer) chunks
        ((cursor, before ++ (d.deliveredBatch chunks ++ d.lostBatch chunks)), rest) ∧
      ((d.machine.step (cursor, before ++ (d.deliveredBatch chunks ++ d.lostBatch chunks)) rest =
          .wait ∧ d.lostBatch chunks = []) ∨
        ∃ early chunk late cursor' kept size s rest', chunks = early ++ chunk :: late ∧
        d.machine.Reaches ((d.cursor, before), d.buffer ++ early.flatten)
          ((cursor', before ++ d.deliveredBatch chunks), kept) ∧
        d.machine.step (cursor', before ++ d.deliveredBatch chunks) kept = .wait ∧
        d.machine.Reaches ((cursor', before ++ d.deliveredBatch chunks), kept ++ chunk)
          ((cursor, before ++ (d.deliveredBatch chunks ++ d.lostBatch chunks)), rest) ∧
        d.machine.step (cursor, before ++ (d.deliveredBatch chunks ++ d.lostBatch chunks)) rest =
          .halt size s rest') := by
  induction chunks generalizing d before with
  | nil =>
    refine ⟨d.cursor, d.buffer, ?_, .inl ⟨?_, rfl⟩⟩
    · simp only [deliveredBatch, lostBatch, List.append_nil]
      exact .nil _
    · simp only [deliveredBatch, lostBatch, List.append_nil]
      exact hwait
  | cons chunk chunks ih =>
    obtain ⟨⟨hdir, hmax⟩, hreach, hend⟩ := feedRun_spec d ⟨chunk, none⟩ rfl before
    unfold deliveredBatch lostBatch feed
    generalize d.feedRun chunk none = run at hdir hmax hreach hend
    obtain ⟨packets, error, d'⟩ := run
    simp only at hdir hmax hreach hend ⊢
    have hm := machine_eq_of_limits hdir hmax
    rcases hend with ⟨rfl, hstop⟩ | ⟨size, s, rest', rfl, hhalt⟩
    · have hwait' := hstop trivial
      obtain ⟨cursor, rest, hserves, hlast⟩ := ih (hm ▸ hwait')
      rw [hm] at hserves hlast
      simp only [List.append_assoc] at hserves hlast ⊢
      refine ⟨cursor, rest,
        .wait ⟨hreach, PrefixMachine.settled_of_wait hwait'⟩ hwait' hserves, ?_⟩
      rcases hlast with hdone | ⟨early, chunk', late, cursor', kept, size, s, rest', rfl, hearly,
        hkept, hlate, hhalt⟩
      · exact .inl hdone
      · refine .inr ⟨chunk :: early, chunk', late, cursor', kept, size, s, rest', rfl, ?_, hkept,
          hlate, hhalt⟩
        have hfirst := hreach.append early.flatten
        rw [List.flatten_cons, ← List.append_assoc]
        exact hfirst.trans hearly
    · rw [List.nil_append]
      refine ⟨d'.cursor, d'.buffer,
        .halt ⟨hreach, PrefixMachine.settled_of_halt hhalt⟩ hhalt, .inr ?_⟩
      refine ⟨[], chunk, chunks, d.cursor, d.buffer, size, s, rest', rfl, ?_, ?_, ?_, hhalt⟩
      · rw [List.flatten_nil, List.append_nil, List.append_nil]
      · rw [List.append_nil]
        exact hwait
      · rw [List.append_nil]
        exact hreach

/-- One at a time, in whatever pieces, delivers what the batch delivers and what it loses. -/
theorem deliveredOnes_eq {d : FrameStreamDecoder} {chunks chunks' : List Bytes}
    (hwait : d.machine.step (d.cursor, []) d.buffer = .wait)
    (hcut : chunks.flatten = chunks'.flatten) :
    d.deliveredOnes chunks' = d.deliveredBatch chunks ++ d.lostBatch chunks := by
  obtain ⟨cursor, rest, hbatch, -⟩ := deliveredBatch_serves chunks hwait
  obtain ⟨cursor', rest', hones⟩ := deliveredOnes_serves d chunks' []
  simp only [List.nil_append] at hbatch hones
  rcases hbatch.chunk_independent hones hwait hcut with ⟨-, hsame⟩ | ⟨e, s, t, t', hhalt, hhalt'⟩
  · exact congrArg (fun c => c.1.2) hsame
  · have hstate : ∀ {s' : Option TransformCursor × List Packet} {buffer : Bytes} {t : Bytes},
        d.machine.step s' buffer = .halt e s t → s = s' := by
      intro s' buffer t h
      simp only [machine, frameMachine] at h
      cases hs : scanFrame d.direction d.maxPayloadBytes s'.1 buffer with
      | more => rw [hs] at h; cases h
      | frame packet cursor rest => rw [hs] at h; cases h
      | oversized size => rw [hs] at h; cases h; rfl
    exact congrArg Prod.snd ((hstate hhalt').symm.trans (hstate hhalt))

/-- Wherever valid frames stand in front of a complete header over the limit, a chunk ends
behind the last of these frames and before the end of that header. -/
def CutBeforeBadHeader (d : FrameStreamDecoder) (chunks : List Bytes) : Prop :=
  ∀ packets wire cursor rest size, packets ≠ [] →
    encodeFrames d.direction d.cursor packets = .ok (wire, cursor) →
    (∀ packet ∈ packets, packet.payload.length ≤ d.maxPayloadBytes) →
    chunks.flatten = wire ++ rest →
    declaredLength d.direction cursor rest = some size → d.maxPayloadBytes < size →
    ∃ early late part, chunks = early ++ late ∧ early.flatten = wire ++ part ∧
      declaredLength d.direction cursor part = none

theorem payload_le_of_reaches {d : FrameStreamDecoder} {before : List Packet} {buffer : Bytes}
    {c : (Option TransformCursor × List Packet) × Bytes}
    (hbefore : ∀ packet ∈ before, packet.payload.length ≤ d.maxPayloadBytes)
    (h : d.machine.Reaches ((d.cursor, before), buffer) c) :
    ∀ packet ∈ c.1.2, packet.payload.length ≤ d.maxPayloadBytes := by
  refine h.invariant (I := fun c => ∀ packet ∈ c.1.2, packet.payload.length ≤ d.maxPayloadBytes)
    hbefore ?_
  intro s buffer' s' rest hinv hstep
  simp only [machine, frameMachine] at hstep
  cases hs : scanFrame d.direction d.maxPayloadBytes s.1 buffer' with
  | more => rw [hs] at hstep; cases hstep
  | oversized size => rw [hs] at hstep; cases hstep
  | frame packet next rest' =>
    rw [hs] at hstep
    cases hstep
    obtain ⟨-, hmax, -⟩ := frameBytes_of_scanFrame hs
    intro p hp
    rcases List.mem_append.mp hp with hold | hnew
    · exact hinv p hold
    · rw [List.mem_singleton.mp hnew]
      exact hmax

theorem step_halt_iff {d : FrameStreamDecoder} {s : Option TransformCursor × List Packet}
    {buffer : Bytes} :
    (∃ size t rest, d.machine.step s buffer = .halt size t rest) ↔
      ∃ size, declaredLength d.direction s.1 buffer = some size ∧ d.maxPayloadBytes < size := by
  simp only [← scanFrame_oversized_iff, machine, frameMachine]
  cases scanFrame d.direction d.maxPayloadBytes s.1 buffer <;> simp

theorem lostBatch_eq_nil_iff {d : FrameStreamDecoder} (hfresh : d.buffer = [])
    (chunks : List Bytes) : d.lostBatch chunks = [] ↔ d.CutBeforeBadHeader chunks := by
  have hstart : d.machine.step (d.cursor, []) d.buffer = .wait := by
    rw [hfresh]
    rfl
  obtain ⟨cursor, rest, hserves, hlast⟩ := deliveredBatch_serves chunks hstart
  simp only [List.nil_append, hfresh] at hserves hlast
  constructor
  · intro hlost packets wire cursor' tail size _ henc hsmall hstream hdeclared hlong
    -- The run over the whole stream ends behind `packets`, at the bad header.
    have hgood := reaches_of_encodeFrames henc hsmall [] tail
    obtain ⟨_, _, _, hbad⟩ := step_halt_iff (s := (cursor', packets)).mpr ⟨size, hdeclared, hlong⟩
    obtain ⟨unread, hsettles, hunread⟩ := hserves.settles (hfresh ▸ hstart)
    rw [List.nil_append, hstream] at hsettles
    have hend := hsettles.unique ⟨hgood, PrefixMachine.settled_of_halt hbad⟩
    obtain ⟨hstate, hrest⟩ := Prod.mk.inj hend
    simp only [hlost, List.append_nil, List.nil_append] at hstate hrest hlast hunread
    rcases hlast with ⟨hwait, -⟩ | ⟨early, chunk, late, before, kept, size', s, rest', hchunks,
      hearly, hkept, hlate, -⟩
    · rcases hunread with ⟨-, rfl⟩ | ⟨e, t, left, hhalt⟩
      · rw [List.append_nil] at hrest
        rw [hstate, hrest, hbad] at hwait
        cases hwait
      · rw [hwait] at hhalt
        cases hhalt
    -- Nothing was decoded in the raising call, so its predecessors ended behind `packets`.
    obtain ⟨none', wire', hnone, hempty, hkeptChunk⟩ := encodeFrames_of_reaches hlate
    obtain rfl : none' = [] := by simpa using hnone
    obtain ⟨packets', wire'', hpackets, hencEarly, hbytes⟩ := encodeFrames_of_reaches hearly
    cases hempty
    obtain ⟨rfl, hbatch⟩ := Prod.mk.inj hstate
    simp only [List.nil_append] at hpackets hbytes hkeptChunk
    rw [← hpackets, hbatch, henc] at hencEarly
    cases hencEarly
    refine ⟨early, chunk :: late, kept, hchunks, hbytes, ?_⟩
    by_contra hsome
    obtain ⟨size'', hheader⟩ := Option.ne_none_iff_exists'.mp hsome
    have hsame := declaredLength_append hheader (chunk ++ unread)
    rw [← List.append_assoc, hkeptChunk, hrest, hdeclared] at hsame
    cases hsame
    obtain ⟨_, _, _, hhalt⟩ := step_halt_iff (s := (cursor, d.deliveredBatch chunks)).mpr
      ⟨size, hheader, hlong⟩
    rw [hkept] at hhalt
    cases hhalt
  · intro hcut
    by_contra hne
    rcases hlast with ⟨-, hnone⟩ | ⟨early, chunk, late, cursor', kept, size, s, rest', hchunks,
      hearly, hkept, hlate, hhalt⟩
    · exact hne hnone
    have hreach := (hearly.append chunk).trans hlate
    obtain ⟨packets, wire, hpackets, henc, hbytes⟩ := encodeFrames_of_reaches hreach
    rw [List.nil_append] at hpackets
    subst hpackets
    obtain ⟨size', hdeclared, hlong⟩ := step_halt_iff.mp ⟨size, s, rest', hhalt⟩
    simp only at hdeclared
    have hsmall := payload_le_of_reaches (by simp) hreach
    have hstream : chunks.flatten = wire ++ (rest ++ late.flatten) := by
      rw [hchunks, List.flatten_append, List.flatten_cons, ← List.append_assoc, hbytes,
        List.append_assoc]
    -- Before the raising call the last of these frames was not complete yet.
    have hshort : ∀ more, early.flatten ≠ wire ++ more := by
      intro more heq
      have hthere := reaches_of_encodeFrames henc hsmall [] more
      rw [← heq] at hthere
      have hsettled : d.machine.Settles ((d.cursor, []), early.flatten) _ :=
        ⟨hearly, PrefixMachine.settled_of_wait hkept⟩
      obtain ⟨packets, -, hback, -, -⟩ :=
        encodeFrames_of_reaches (hsettled.of_reaches hthere).1
      simp only [List.nil_append, List.append_assoc, List.self_eq_append_right] at hback
      exact hne (List.append_eq_nil_iff.mp hback).1
    obtain ⟨early', late', part, hsplit, hpart, hheader⟩ := hcut _ wire cursor _ size'
      (fun hnil => hne (List.append_eq_nil_iff.mp hnil).2) henc hsmall hstream
      (declaredLength_append hdeclared _) hlong
    rcases List.append_eq_append_iff.mp (hchunks.symm.trans hsplit) with
      ⟨more, rfl, hmore⟩ | ⟨more, rfl, -⟩
    · cases more with
      | nil =>
        rw [List.append_nil] at hpart
        exact hshort part hpart
      | cons chunk' more =>
        obtain ⟨rfl, -⟩ := List.cons.inj hmore
        rw [List.flatten_append, List.flatten_cons, ← List.append_assoc, hbytes,
          List.append_assoc] at hpart
        rw [← List.append_cancel_left hpart, declaredLength_append hdeclared] at hheader
        cases hheader
    · rw [List.flatten_append, hpart, List.append_assoc] at hshort
      exact hshort _ rfl

/-- The batch calls deliver what one packet at a time delivers, however either caller cuts the
stream, exactly if no valid frame shares its batch call with the header that is refused. -/
theorem batch_delivers_iff (direction : FrameDirection) (cursor : Option TransformCursor)
    (maxPayloadBytes : Nat) (chunks chunks' : List Bytes)
    (hcut : chunks.flatten = chunks'.flatten) :
    let d : FrameStreamDecoder := { direction, cursor, maxPayloadBytes }
    d.deliveredBatch chunks = d.deliveredOnes chunks' ↔ d.CutBeforeBadHeader chunks := by
  intro d
  have hstart : d.machine.step (d.cursor, []) d.buffer = .wait := rfl
  rw [deliveredOnes_eq hstart hcut, List.self_eq_append_right]
  exact lostBatch_eq_nil_iff rfl chunks

/-- The header that is refused comes in a call of its own. -/
theorem cutBeforeBadHeader_separate :
    let d : FrameStreamDecoder := { direction := .clientToServer, maxPayloadBytes := 4 }
    d.CutBeforeBadHeader [[0xDA, 0, 0], [0xBB, 0, 5]] :=
  (batch_delivers_iff .clientToServer none 4 [[0xDA, 0, 0], [0xBB, 0, 5]]
    [[0xDA, 0, 0, 0xBB, 0, 5]] rfl).mp (by decide)

/-- It comes in the call of the valid frame before it. -/
theorem batch_loses_frame :
    let d : FrameStreamDecoder := { direction := .clientToServer, maxPayloadBytes := 4 }
    d.deliveredBatch [[0xDA, 0, 0, 0xBB, 0, 5]] = [] ∧
      d.deliveredOnes [[0xDA, 0, 0, 0xBB, 0, 5]] = [⟨0xDA, []⟩] := by
  decide

end FrameStreamDecoder
end Army3
