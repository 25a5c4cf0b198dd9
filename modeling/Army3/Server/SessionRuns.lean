import Army3.Server.SessionTable

namespace Army3

/-- One call of `handle`: what it was given and how it left the session. -/
structure Exchange where
  before : LoginSession
  packet : Packet
  result : Except PyError SessionOutcome
  after : LoginSession
  deriving DecidableEq

namespace Exchange

def outbound (x : Exchange) : List Packet :=
  match x.result with
  | .ok outcome => outcome.outbound
  | .error _ => []

/-- The packet was an accepted request with this command. -/
def Accepts (x : Exchange) (command : Command) : Bool :=
  match x.result with
  | .ok _ => x.packet.command = command.value
  | .error _ => false

def outcome? (x : Exchange) : Option (Packet × SessionOutcome) :=
  match x.result with
  | .ok outcome => some (x.packet, outcome)
  | .error _ => none

end Exchange

/-- The order in which a session passes through its states. -/
def SessionState.rank : SessionState → Nat
  | awaitClientE5 => 0
  | awaitInitialBb => 1
  | bootstrap => 2
  | accountPanelReady => 3

namespace LoginSession

def exchange (s : LoginSession) (packet : Packet) : Exchange :=
  let answer := (handle packet).run s
  ⟨s, packet, answer.1, answer.2⟩

/-- A sequence of calls; a rejected packet leaves the run going. -/
def exchanges (s : LoginSession) : List Packet → List Exchange
  | [] => []
  | packet :: packets => s.exchange packet :: exchanges (s.exchange packet).after packets

def afterPackets (s : LoginSession) : List Packet → LoginSession
  | [] => s
  | packet :: packets => afterPackets (s.exchange packet).after packets

/-- The packets sent in a run. -/
def sent (s : LoginSession) (packets : List Packet) : List Packet :=
  (s.exchanges packets).flatMap Exchange.outbound

theorem afterPackets_concat (s : LoginSession) (packets : List Packet) (packet : Packet) :
    s.afterPackets (packets ++ [packet]) = ((s.afterPackets packets).exchange packet).after := by
  induction packets generalizing s with
  | nil => rfl
  | cons first packets ih => exact ih (s.exchange first).after

theorem sent_concat (s : LoginSession) (packets : List Packet) (packet : Packet) :
    s.sent (packets ++ [packet]) =
      s.sent packets ++ ((s.afterPackets packets).exchange packet).outbound := by
  induction packets generalizing s with
  | nil => simp [sent, exchanges, afterPackets]
  | cons first packets ih =>
    have htail := ih (s.exchange first).after
    simp only [sent] at htail
    simp only [sent, List.cons_append, exchanges, List.flatMap_cons, htail, afterPackets,
      List.append_assoc]

theorem exchange_cases (s : LoginSession) (packet : Packet) :
    (∃ text, s.exchange packet = ⟨s, packet, .error (.sessionProtocolError text), s⟩) ∨
    (∃ command outcome s', packet.command = command.value ∧
      s.answer command = some (outcome, s') ∧ s.exchange packet = ⟨s, packet, .ok outcome, s'⟩) ∨
    (¬ s.RevisionFits ∧ (s.state = .awaitInitialBb ∨ s.state = .bootstrap) ∧ ∃ text,
      s.exchange packet = ⟨s, packet, .error (.encodeError text), { s with state := .bootstrap }⟩) := by
  have h := handle_handled s packet
  unfold exchange
  generalize (handle packet).run s = answer at h
  cases h with
  | rejected text => exact .inl ⟨text, rfl⟩
  | accepted hcommand hanswer => exact .inr (.inl ⟨_, _, _, hcommand, hanswer, rfl⟩)
  | unfit text hfits hstate => exact .inr (.inr ⟨hfits, hstate, text, rfl⟩)

theorem exchange_cases_of_fits {s : LoginSession} (hfits : s.RevisionFits) (packet : Packet) :
    (∃ text, s.exchange packet = ⟨s, packet, .error (.sessionProtocolError text), s⟩) ∨
    (∃ command outcome s', packet.command = command.value ∧
      s.answer command = some (outcome, s') ∧ s.exchange packet = ⟨s, packet, .ok outcome, s'⟩) := by
  rcases exchange_cases s packet with h | h | ⟨hunfit, -⟩
  · exact .inl h
  · exact .inr h
  · exact absurd hfits hunfit

/-- No answer changes what the session was built with. -/
theorem Answers.configuration {s s' : LoginSession} {command : Command} {outcome : SessionOutcome}
    (h : Answers s command outcome s') :
    s'.experimentalSplashRevision = s.experimentalSplashRevision ∧
    s'.experimentalAreaPush = s.experimentalAreaPush ∧ s'.handshake = s.handshake := by
  cases h <;> exact ⟨rfl, rfl, rfl⟩

theorem exchange_configuration (s : LoginSession) (packet : Packet) :
    (s.exchange packet).after.experimentalSplashRevision = s.experimentalSplashRevision ∧
    (s.exchange packet).after.experimentalAreaPush = s.experimentalAreaPush ∧
    (s.exchange packet).after.handshake = s.handshake := by
  rcases exchange_cases s packet with ⟨text, h⟩ | ⟨command, outcome, s', -, hanswer, h⟩ |
    ⟨-, -, text, h⟩ <;> rw [h]
  · exact ⟨rfl, rfl, rfl⟩
  · exact (answers_of_answer hanswer).configuration
  · exact ⟨rfl, rfl, rfl⟩

theorem RevisionFits.exchange {s : LoginSession} (h : s.RevisionFits) (packet : Packet) :
    (s.exchange packet).after.RevisionFits := by
  rw [RevisionFits, (exchange_configuration s packet).1]
  exact h

theorem RevisionFits.afterPackets {s : LoginSession} (h : s.RevisionFits) (packets : List Packet) :
    (s.afterPackets packets).RevisionFits := by
  induction packets generalizing s with
  | nil => exact h
  | cons packet packets ih => exact ih (h.exchange packet)

theorem afterPackets_areaPush (s : LoginSession) (packets : List Packet) :
    (s.afterPackets packets).experimentalAreaPush = s.experimentalAreaPush := by
  induction packets generalizing s with
  | nil => rfl
  | cons packet packets ih => exact (ih _).trans (exchange_configuration s packet).2.1

/-- In every session reached, `handle` returns an outcome, or raises `SessionProtocolError` and
leaves all fields of the session as they were. -/
theorem handle_total_atomic (key : HandshakeKey) (revision : Option Int) (areaPush : Bool)
    (hrevision : ∀ r ∈ revision, -128 ≤ r ∧ r ≤ 127) (earlier : List Packet) (packet : Packet) :
    let s := (create key revision areaPush).afterPackets earlier
    (∃ outcome s', (handle packet).run s = (.ok outcome, s')) ∨
      ∃ text, (handle packet).run s = (.error (.sessionProtocolError text), s) := by
  intro s
  have hstart : (create key revision areaPush).RevisionFits := hrevision
  have h := handle_handled s packet
  generalize (handle packet).run s = answer at h
  cases h with
  | rejected text => exact .inr ⟨text, rfl⟩
  | accepted hcommand hanswer => exact .inl ⟨_, _, rfl⟩
  | unfit text hfits hstate => exact absurd (hstart.afterPackets earlier) hfits

/-- With the lowest revision, a 0xBB with a truncated payload after the handshake. -/
theorem handle_total_atomic_truncated_bb :
    let s := (create .shipped (some (-128)) true).afterPackets [⟨0xE5, []⟩]
    (∃ outcome s', (handle ⟨0xBB, [0]⟩).run s = (.ok outcome, s')) ∨
      ∃ text, (handle ⟨0xBB, [0]⟩).run s = (.error (.sessionProtocolError text), s) :=
  handle_total_atomic .shipped (some (-128)) true (by simp) [⟨0xE5, []⟩] ⟨0xBB, [0]⟩

/-- What an accepted exchange did is the table's entry for its command. -/
theorem exchange_of_accepted {s : LoginSession} {packet : Packet}
    (h : (s.exchange packet).outcome?.isSome) :
    ∃ command outcome s', packet.command = command.value ∧
      s.answer command = some (outcome, s') ∧ s.exchange packet = ⟨s, packet, .ok outcome, s'⟩ := by
  rcases exchange_cases s packet with ⟨text, hx⟩ | hx | ⟨-, -, text, hx⟩
  · rw [hx] at h
    cases h
  · exact hx
  · rw [hx] at h
    cases h

/-- Requests with the same commands, whatever they carry, are answered byte for byte alike and
leave equal sessions as long as all of them are accepted. -/
theorem handle_noninterference (s : LoginSession) (packets packets' : List Packet)
    (hcommands : packets.map Packet.command = packets'.map Packet.command)
    (haccepted : ∀ x ∈ s.exchanges packets, x.outcome?.isSome)
    (haccepted' : ∀ x ∈ s.exchanges packets', x.outcome?.isSome) :
    (s.exchanges packets).map (fun x => (x.result, x.after)) =
      (s.exchanges packets').map (fun x => (x.result, x.after)) := by
  induction packets generalizing s packets' with
  | nil =>
    rw [List.map_nil, eq_comm, List.map_eq_nil_iff] at hcommands
    rw [hcommands]
  | cons packet packets ih =>
    cases packets' with
    | nil => cases hcommands
    | cons packet' packets' =>
      rw [List.map_cons, List.map_cons, List.cons.injEq] at hcommands
      obtain ⟨command, outcome, s1, hcommand, hanswer, hx⟩ :=
        exchange_of_accepted (haccepted _ List.mem_cons_self)
      obtain ⟨command', outcome', s1', hcommand', hanswer', hx'⟩ :=
        exchange_of_accepted (haccepted' _ List.mem_cons_self)
      have hsame : command = command' := by
        apply Command.value_injective
        rw [← hcommand, ← hcommand', hcommands.1]
      subst hsame
      obtain ⟨rfl, rfl⟩ := Prod.mk.inj (Option.some.inj (hanswer.symm.trans hanswer'))
      have hrest := ih s1 packets' hcommands.2
        (fun x hmem => haccepted x (by rw [exchanges, hx]; exact List.mem_cons_of_mem _ hmem))
        (fun x hmem => haccepted' x (by rw [exchanges, hx']; exact List.mem_cons_of_mem _ hmem))
      rw [exchanges, exchanges, hx, hx', List.map_cons, List.map_cons, hrest]

/-- The handshake and a 0xBB with different texts and mode. -/
theorem handle_noninterference_two_requests :
    let s := create .shipped (some 5) true
    (s.exchanges [⟨0xE5, []⟩, ⟨0xBB, [0, 0, 0, 0, 0]⟩]).map (fun x => (x.result, x.after)) =
      (s.exchanges [⟨0xE5, []⟩, ⟨0xBB, [0, 1, 0x61, 0, 0, 1]⟩]).map
        (fun x => (x.result, x.after)) :=
  handle_noninterference _ _ _ rfl (by decide) (by decide)

/-- Only the handshake enables a transform, and it leaves `AWAIT_CLIENT_E5`. -/
theorem Answers.enableTransform {s s' : LoginSession} {command : Command}
    {outcome : SessionOutcome} (h : Answers s command outcome s') :
    s'.state ≠ .awaitClientE5 ∧
    (s.state = .awaitClientE5 →
      command = .handshake ∧ outcome.enableTransform = some s.handshake.transform) ∧
    (s.state ≠ .awaitClientE5 → outcome.enableTransform = none) := by
  cases h with
  | handshake hstate =>
    refine ⟨?_, fun _ => ⟨rfl, rfl⟩, fun hne => absurd hstate hne⟩
    simp
  | silent hstate | reply hstate => exact ⟨hstate, fun h => absurd h hstate, fun _ => rfl⟩
  | greet hstate | enter hstate =>
    refine ⟨by simp, fun h => ?_, fun _ => rfl⟩
    simp [h] at hstate
  | session hstate | area hstate | settled hstate =>
    refine ⟨by rw [hstate]; decide, fun h => ?_, fun _ => rfl⟩
    rw [hstate] at h
    cases h

theorem Answers.rank_le {s s' : LoginSession} {command : Command} {outcome : SessionOutcome}
    (h : Answers s command outcome s') : s.state.rank ≤ s'.state.rank := by
  cases h with
  | handshake hstate =>
    rw [hstate]
    exact Nat.zero_le _
  | greet hstate | enter hstate =>
    rcases hstate with hstate | hstate <;> simp [hstate, SessionState.rank]
  | silent | reply | session | area | settled => exact le_rfl

/-- An area list leaves the session in `ACCOUNT_PANEL_READY`. -/
theorem Answers.area_ready {s s' : LoginSession} {command : Command} {outcome : SessionOutcome}
    (h : Answers s command outcome s') {p : Packet} (hp : p ∈ outcome.outbound)
    (harea : p.command = Command.area.value) : s'.state = .accountPanelReady := by
  cases h with
  | handshake hstate =>
    obtain rfl := List.mem_singleton.mp hp
    cases harea
  | silent => cases hp
  | reply hstate hreply =>
    obtain rfl := List.mem_singleton.mp hp
    obtain ⟨hcommand, hmem⟩ := replies_command hreply
    rw [Command.value_injective (hcommand.symm.trans harea)] at hmem
    simp at hmem
  | greet hstate =>
    have hmem := List.mem_map_of_mem (f := Packet.command) hp
    rw [greeting_commands, harea] at hmem
    split at hmem <;> simp [Command.value] at hmem
  | enter hstate => rfl
  | session hstate => exact hstate
  | area hstate => exact hstate
  | settled hstate => exact hstate

theorem exchange_rank_le (s : LoginSession) (packet : Packet) :
    s.state.rank ≤ (s.exchange packet).after.state.rank := by
  rcases exchange_cases s packet with ⟨text, h⟩ | ⟨command, outcome, s', -, hanswer, h⟩ |
    ⟨-, hstate, text, h⟩ <;> rw [h]
  · exact (answers_of_answer hanswer).rank_le
  · rcases hstate with hstate | hstate <;> simp [hstate, SessionState.rank]

theorem exchanges_rank_pairwise (s : LoginSession) (packets : List Packet) :
    (s.state :: (s.exchanges packets).map (·.after.state)).Pairwise
      (fun earlier later => earlier.rank ≤ later.rank) := by
  induction packets generalizing s with
  | nil => exact List.pairwise_singleton _ _
  | cons packet packets ih =>
    have htail := ih (s.exchange packet).after
    refine List.pairwise_cons.mpr ⟨?_, htail⟩
    intro state hmem
    have hstep := exchange_rank_le s packet
    rcases List.mem_cons.mp hmem with rfl | hmem
    · exact hstep
    · exact hstep.trans (List.rel_of_pairwise_cons htail hmem)

/-- The handshake request is accepted. -/
theorem handle_e5 {s : LoginSession} (hstate : s.state = .awaitClientE5) :
    (handle ⟨0xE5, []⟩).run s = (.ok ⟨[handshakePacket s.handshake], some s.handshake.transform⟩,
      { s with state := .awaitInitialBb }) := by
  have hdecode : (decodeEmpty ⟨0xE5, []⟩ .handshake).run s = (.ok (), s) := rfl
  unfold handle
  rw [Raising.run_get_bind]
  simp only [hstate]
  exact handleE5_run hdecode

theorem answers_of_handle {s s' : LoginSession} {packet : Packet} {outcome : SessionOutcome}
    (h : (handle packet).run s = (.ok outcome, s')) : ∃ command, Answers s command outcome s' := by
  have hhandled := handle_handled s packet
  rw [h] at hhandled
  cases hhandled with
  | accepted hcommand hanswer => exact ⟨_, answers_of_answer hanswer⟩

/-- What a session waiting for the handshake accepts is an empty 0xE5. -/
theorem exchange_of_accepted_e5 {s : LoginSession} {packet : Packet}
    (hstate : s.state = .awaitClientE5) (h : (s.exchange packet).outcome?.isSome) :
    packet = ⟨0xE5, []⟩ := by
  obtain ⟨command, outcome, s', hcommand, hanswer, hx⟩ := exchange_of_accepted h
  obtain ⟨rfl, -⟩ := (answers_of_answer hanswer).enableTransform.2.1 hstate
  obtain ⟨code, payload⟩ := packet
  obtain rfl : code = 0xE5 := hcommand
  by_cases hempty : payload = []
  · rw [hempty]
  · have hraises : ∃ text, (decodeEmpty ⟨0xE5, payload⟩ .handshake).run s =
        (.error (.sessionProtocolError text), s) := decodeEmpty_run_of_payload hempty
    obtain ⟨text, hrun⟩ := hraises
    have hraise : (handle ⟨0xE5, payload⟩).run s = (.error (.sessionProtocolError text), s) := by
      unfold handle
      rw [Raising.run_get_bind]
      simp only [hstate, handleE5]
      rw [Raising.run_bind_of_error hrun]
    simp only [exchange, hraise] at hx
    cases hx

/-- The packets accepted in a run, with their outcomes. -/
def acceptedOutcomes (s : LoginSession) (packets : List Packet) : List (Packet × SessionOutcome) :=
  (s.exchanges packets).filterMap Exchange.outcome?

theorem acceptedOutcomes_cons (s : LoginSession) (packet : Packet) (packets : List Packet) :
    s.acceptedOutcomes (packet :: packets) = (s.exchange packet).outcome?.toList ++
      (s.exchange packet).after.acceptedOutcomes packets := by
  unfold acceptedOutcomes
  rw [exchanges, List.filterMap_cons]
  cases (s.exchange packet).outcome? <;> rfl

theorem exchange_state_ne {s : LoginSession} (hstate : s.state ≠ .awaitClientE5) (packet : Packet) :
    (s.exchange packet).after.state ≠ .awaitClientE5 := by
  have hrank := exchange_rank_le s packet
  intro h
  rw [h] at hrank
  cases hs : s.state with
  | awaitClientE5 => exact hstate hs
  | awaitInitialBb | bootstrap | accountPanelReady => simp [hs, SessionState.rank] at hrank

/-- After the handshake no outcome enables a transform. -/
theorem acceptedOutcomes_enable_none {s : LoginSession} (hstate : s.state ≠ .awaitClientE5)
    (packets : List Packet) :
    ∀ x ∈ s.acceptedOutcomes packets, x.2.enableTransform = none := by
  induction packets generalizing s with
  | nil => exact fun x hx => nomatch hx
  | cons packet packets ih =>
    intro x hx
    rw [acceptedOutcomes_cons] at hx
    rcases List.mem_append.mp hx with hhead | htail
    · cases hout : (s.exchange packet).outcome? with
      | none =>
        rw [hout] at hhead
        cases hhead
      | some pair =>
        have haccepted : (s.exchange packet).outcome?.isSome := by
          rw [hout]
          rfl
        obtain ⟨command, outcome, s', -, hanswer, heq⟩ := exchange_of_accepted haccepted
        rw [heq] at hhead
        obtain rfl := List.mem_singleton.mp hhead
        exact (answers_of_answer hanswer).enableTransform.2.2 hstate
    · exact ih (exchange_state_ne hstate packet) x htail

/-- The first accepted packet is an empty 0xE5; its outcome is the one that enables the
transform. -/
theorem acceptedOutcomes_handshake {s : LoginSession} (hstate : s.state = .awaitClientE5)
    (packets : List Packet) :
    s.acceptedOutcomes packets = [] ∨ ∃ outcome rest,
      s.acceptedOutcomes packets = (⟨0xE5, []⟩, outcome) :: rest ∧
      outcome.enableTransform = some s.handshake.transform ∧
      ∀ x ∈ rest, x.2.enableTransform = none := by
  induction packets with
  | nil => exact .inl rfl
  | cons packet packets ih =>
    rw [acceptedOutcomes_cons]
    by_cases haccepted : (s.exchange packet).outcome?.isSome
    · right
      obtain rfl := exchange_of_accepted_e5 hstate haccepted
      obtain ⟨command, outcome, s', -, hanswer, heq⟩ := exchange_of_accepted haccepted
      obtain ⟨hstate', henable, -⟩ := (answers_of_answer hanswer).enableTransform
      rw [heq]
      exact ⟨outcome, s'.acceptedOutcomes packets, rfl, (henable hstate).2,
        acceptedOutcomes_enable_none hstate' packets⟩
    · rcases exchange_cases s packet with ⟨text, h⟩ | ⟨_, _, _, -, -, h⟩ | ⟨-, hearly, -⟩
      · rw [h]
        exact ih
      · rw [h] at haccepted
        exact absurd rfl haccepted
      · rw [hstate] at hearly
        simp at hearly

theorem exchange_area_ready {s : LoginSession} {packet p : Packet}
    (hp : p ∈ (s.exchange packet).outbound) (harea : p.command = Command.area.value) :
    (s.exchange packet).after.state = .accountPanelReady := by
  rcases exchange_cases s packet with ⟨text, h⟩ | ⟨command, outcome, s', -, hanswer, h⟩ |
    ⟨-, -, text, h⟩ <;> rw [h] at hp ⊢
  · cases hp
  · exact (answers_of_answer hanswer).area_ready hp harea
  · cases hp

theorem exchanges_area_ready {s : LoginSession} {packets : List Packet} {x : Exchange}
    (hx : x ∈ s.exchanges packets) {p : Packet} (hp : p ∈ x.outbound)
    (harea : p.command = Command.area.value) : x.after.state = .accountPanelReady := by
  induction packets generalizing s with
  | nil => cases hx
  | cons packet packets ih =>
    rcases List.mem_cons.mp hx with rfl | hx
    · exact exchange_area_ready hp harea
    · exact ih hx

end LoginSession
end Army3
