import Army3.Server.SessionRuns

namespace Army3
namespace LoginSession

/-- How many packets of a list carry a command. -/
def countOf (command : Command) (packets : List Packet) : Nat :=
  packets.countP fun p => p.command = command.value

theorem countOf_eq_count (command : Command) (packets : List Packet) :
    countOf command packets = (packets.map Packet.command).count command.value := by
  rw [countOf, List.count, List.countP_map]
  rfl

/-- The flags and the state belong together in every session reached. -/
structure Consistent (s : LoginSession) : Prop where
  fits : s.RevisionFits
  pushed : s.areaPushSent = (s.experimentalAreaPush && decide (s.state = .accountPanelReady))
  unsent : s.state = .awaitClientE5 ∨ s.state = .awaitInitialBb → s.splashTransitionSent = false
  splashed : s.state = .bootstrap →
    s.splashTransitionSent = s.experimentalSplashRevision.isSome
  configured : s.splashTransitionSent → s.experimentalSplashRevision.isSome

theorem create_consistent (key : HandshakeKey) {revision : Option Int} (areaPush : Bool)
    (h : ∀ r ∈ revision, -128 ≤ r ∧ r ≤ 127) : (create key revision areaPush).Consistent where
  fits := h
  pushed := by simp [create]
  unsent := fun _ => rfl
  splashed := by simp [create]
  configured := by simp [create]

theorem Consistent.answers {s s' : LoginSession} {command : Command} {outcome : SessionOutcome}
    (hs : s.Consistent) (h : Answers s command outcome s') : s'.Consistent := by
  have hpushed := hs.pushed
  cases h with
  | handshake hstate =>
    have hsplash := hs.unsent (.inl hstate)
    refine ⟨hs.fits, ?_, fun _ => hsplash, by simp, hs.configured⟩
    simpa [hstate] using hpushed
  | silent | reply | session | area | settled => exact hs
  | greet hstate =>
    refine ⟨hs.fits, ?_, by simp, fun _ => ?_, ?_⟩
    · rcases hstate with hstate | hstate <;> simpa [greeted, hstate] using hpushed
    · have hconfigured := hs.configured
      cases hsplash : s.splashTransitionSent with
      | false => simp [greeted, hsplash]
      | true => simp [greeted, hsplash, hconfigured hsplash]
    · have hconfigured := hs.configured
      intro h
      rcases Bool.or_eq_true_iff.mp h with h | h
      · exact hconfigured h
      · exact h
  | enter hstate =>
    refine ⟨hs.fits, ?_, by simp, by simp, hs.configured⟩
    rcases hstate with hstate | hstate <;> simp [hstate] at hpushed <;> simp [ready, hpushed]

theorem Consistent.exchange {s : LoginSession} (hs : s.Consistent) (packet : Packet) :
    (s.exchange packet).after.Consistent := by
  rcases exchange_cases_of_fits hs.fits packet with ⟨text, h⟩ | ⟨command, outcome, s', -, hanswer, h⟩
    <;> rw [h]
  · exact hs
  · exact hs.answers (answers_of_answer hanswer)

theorem Consistent.afterPackets {s : LoginSession} (hs : s.Consistent) (packets : List Packet) :
    (s.afterPackets packets).Consistent := by
  induction packets generalizing s with
  | nil => exact hs
  | cons packet packets ih => exact ih (hs.exchange packet)

/-- Every exchange of a run starts from a consistent session. -/
theorem mem_exchanges {s : LoginSession} (hs : s.Consistent) {packets : List Packet} {x : Exchange}
    (hx : x ∈ s.exchanges packets) :
    ∃ (s' : LoginSession) (packet : Packet), s'.Consistent ∧ x = s'.exchange packet := by
  induction packets generalizing s with
  | nil => cases hx
  | cons packet packets ih =>
    rcases List.mem_cons.mp hx with rfl | hx
    · exact ⟨s, packet, hs, rfl⟩
    · exact ih (hs.exchange packet) hx

/-- The commands of the packets an accepted request is answered with. -/
def answerCommands (s : LoginSession) : Command → List UInt8
  | .clientSession =>
    if s.state = .accountPanelReady then [0xBB]
    else if s.experimentalSplashRevision.isSome ∧ ¬ s.splashTransitionSent then [0xBB, 0xE2, 0xC4]
    else [0xBB, 0xE2]
  | .bootstrapReady =>
    if s.state ≠ .accountPanelReady ∧ s.experimentalAreaPush ∧ ¬ s.areaPushSent then [0xE4] else []
  | .handshake => [0xE5]
  | .transportSync => [0xA9]
  | .preloginStatus => [0xFD]
  | .bootstrapDa => [0xDA]
  | .bootstrapE1 => [0xE1]
  | .bootstrapE0 => [0xE0]
  | .area => [0xE4]
  | _ => []

theorem Answers.commands {s s' : LoginSession} {command : Command} {outcome : SessionOutcome}
    (h : Answers s command outcome s') :
    outcome.outbound.map Packet.command = s.answerCommands command := by
  cases h with
  | handshake => rfl
  | silent hstate hcommand =>
    have hall : ∀ command ∈ silentCommands, s.answerCommands command = [] := by
      simp [silentCommands, answerCommands]
    exact (hall _ hcommand).symm
  | reply hstate hreply =>
    have hall : ∀ entry ∈ replies, [entry.2.command] = s.answerCommands entry.1 := by
      simp [replies, answerCommands, resetPacket, preloginPacket, daPacket, e1Packet, e0Packet]
    exact hall _ hreply
  | greet hstate =>
    have hne : s.state ≠ .accountPanelReady := by
      rcases hstate with hstate | hstate <;> simp [hstate]
    rw [greeting_commands, answerCommands, if_neg hne]
  | enter hstate =>
    rw [areaPush_commands, answerCommands]
    rcases hstate with hstate | hstate <;> simp [hstate]
  | session hstate =>
    simp only [answerCommands, hstate]
    rfl
  | area => rfl
  | settled hstate => simp [answerCommands, hstate]

/-- If what an answer sends of a command is what was asked for up to a debt of the session, the
same holds of a run. -/
theorem sent_balance (command asked : Command) (counts : LoginSession → Bool)
    (owed : LoginSession → Nat)
    (hanswer : ∀ s s' request outcome, s.Consistent → Answers s request outcome s' →
      countOf command outcome.outbound + owed s =
        (if request = asked ∧ counts s then 1 else 0) + owed s')
    {s : LoginSession} (hs : s.Consistent) (packets : List Packet) :
    countOf command (s.sent packets) + owed s =
      (s.exchanges packets).countP (fun x => x.Accepts asked && counts x.before) +
        owed (s.afterPackets packets) := by
  induction packets generalizing s with
  | nil => rfl
  | cons packet packets ih =>
    have hrest := ih (hs.exchange packet)
    have hone : countOf command (s.exchange packet).outbound + owed s =
        (if (s.exchange packet).Accepts asked && counts (s.exchange packet).before then 1 else 0) +
          owed (s.exchange packet).after := by
      rcases exchange_cases_of_fits hs.fits packet with ⟨text, h⟩ |
        ⟨request, outcome, s', hrequest, ha, h⟩ <;> rw [h]
      · simp [Exchange.outbound, Exchange.Accepts, countOf]
      · have hbalance := hanswer s s' request outcome hs (answers_of_answer ha)
        have hsame : packet.command = asked.value ↔ request = asked := by
          rw [hrequest]
          exact ⟨Command.value_injective, congrArg _⟩
        simpa [Exchange.outbound, Exchange.Accepts, hsame] using hbalance
    rw [sent, exchanges, List.flatMap_cons, countOf, List.countP_append, List.countP_cons]
    change countOf command (s.exchange packet).outbound +
      countOf command ((s.exchange packet).after.sent packets) + owed s = _
    rw [afterPackets]
    omega

/-- The requests answered by one packet that repeats their command, and by nothing else. -/
def directCommands : List Command :=
  [.handshake, .transportSync, .preloginStatus, .bootstrapDa, .bootstrapE1, .bootstrapE0]

theorem sent_direct {command : Command} (hcommand : command ∈ directCommands) {s : LoginSession}
    (hs : s.Consistent) (packets : List Packet) :
    countOf command (s.sent packets) = (s.exchanges packets).countP (·.Accepts command) := by
  have hbalance := sent_balance command command (fun _ => true) (fun _ => 0) ?_ hs packets
  · simpa using hbalance
  intro s s' request outcome _ h
  rw [countOf_eq_count, h.commands]
  clear h
  have hgreet : command ≠ .clientSession := by
    intro h
    simp [h, directCommands] at hcommand
  have henter : command ≠ .bootstrapReady := by
    intro h
    simp [h, directCommands] at hcommand
  cases request with
  | clientSession =>
    rw [if_neg (by simp [hgreet.symm]), answerCommands]
    clear hgreet henter
    split
    · revert command
      decide
    · split <;> (revert command; decide)
  | bootstrapReady =>
    rw [if_neg (by simp [henter.symm]), answerCommands]
    clear hgreet henter
    split <;> (revert command; decide)
  | _ =>
    clear hgreet henter
    simp only [answerCommands]
    revert command
    decide

theorem sent_session {s : LoginSession} (hs : s.Consistent) (packets : List Packet) :
    countOf .clientSession (s.sent packets) =
      (s.exchanges packets).countP (·.Accepts .clientSession) := by
  have hbalance :=
    sent_balance .clientSession .clientSession (fun _ => true) (fun _ => 0) ?_ hs packets
  · simpa using hbalance
  intro s s' request outcome _ h
  rw [countOf_eq_count, h.commands]
  cases request with
  | clientSession =>
    rw [if_pos ⟨rfl, rfl⟩, answerCommands]
    split
    · rfl
    · split <;> rfl
  | bootstrapReady =>
    rw [if_neg (by simp), answerCommands]
    split <;> rfl
  | _ => rfl

theorem sent_versions {s : LoginSession} (hs : s.Consistent) (packets : List Packet) :
    countOf .bootstrapVersions (s.sent packets) = (s.exchanges packets).countP
      (fun x => x.Accepts .clientSession && x.before.state ≠ .accountPanelReady) := by
  have hbalance := sent_balance .bootstrapVersions .clientSession
    (fun s => s.state ≠ .accountPanelReady) (fun _ => 0) ?_ hs packets
  · exact hbalance
  intro s s' request outcome _ h
  rw [countOf_eq_count, h.commands]
  cases request with
  | clientSession =>
    rw [answerCommands]
    by_cases hready : s.state = .accountPanelReady
    · rw [if_pos hready, if_neg (by simp [hready])]
      rfl
    · have hdue : Command.clientSession = .clientSession ∧
          decide (s.state ≠ .accountPanelReady) = true := ⟨rfl, by simp [hready]⟩
      rw [if_neg hready, if_pos hdue]
      split <;> rfl
  | bootstrapReady =>
    rw [if_neg (by simp), answerCommands]
    split <;> rfl
  | _ => rfl

/-- The one-shot flags are set by the greeting and on entering `ACCOUNT_PANEL_READY`. -/
theorem Answers.flags {s s' : LoginSession} {command : Command} {outcome : SessionOutcome}
    (h : Answers s command outcome s') :
    s'.splashTransitionSent = (s.splashTransitionSent ||
      (decide (command = .clientSession ∧ s.state ≠ .accountPanelReady) &&
        s.experimentalSplashRevision.isSome)) ∧
    s'.areaPushSent = (s.areaPushSent ||
      (decide (command = .bootstrapReady ∧ s.state ≠ .accountPanelReady) &&
        s.experimentalAreaPush)) := by
  cases h with
  | silent hstate hcommand =>
    have hother : command ≠ .clientSession ∧ command ≠ .bootstrapReady := by
      constructor <;> (intro hsame; simp [hsame, silentCommands] at hcommand)
    simp [hother]
  | reply hstate hreply =>
    obtain ⟨-, hmem⟩ := replies_command hreply
    have hother : command ≠ .clientSession ∧ command ≠ .bootstrapReady := by
      constructor <;> (intro hsame; simp [hsame] at hmem)
    simp [hother]
  | greet hstate => rcases hstate with hstate | hstate <;> simp [hstate, greeted]
  | enter hstate => rcases hstate with hstate | hstate <;> simp [hstate, ready]
  | handshake | area => simp
  | session hstate | settled hstate => simp [hstate]

def flag (b : Bool) : Nat := if b then 1 else 0

/-- The splash transition is sent when its one-shot flag is set. -/
theorem sent_screen {s : LoginSession} (hs : s.Consistent) (packets : List Packet) :
    countOf .screenBootstrap (s.sent packets) + flag s.splashTransitionSent =
      flag (s.afterPackets packets).splashTransitionSent := by
  have hbalance := sent_balance .screenBootstrap .screenBootstrap (fun _ => false)
    (fun s => flag s.splashTransitionSent) ?_ hs packets
  · simpa using hbalance
  intro s s' request outcome _ h
  rw [if_neg (by simp), Nat.zero_add, countOf_eq_count, h.commands, h.flags.1]
  cases request with
  | clientSession =>
    rw [answerCommands]
    by_cases hready : s.state = .accountPanelReady
    · simp [hready, Command.value]
    · cases s.experimentalSplashRevision <;> cases s.splashTransitionSent <;>
        simp [hready, Command.value, flag]
  | bootstrapReady =>
    rw [answerCommands]
    split <;> simp [Command.value]
  | _ => simp [answerCommands, Command.value]

/-- An area list is sent for a request, or when the push flag is set. -/
theorem sent_area {s : LoginSession} (hs : s.Consistent) (packets : List Packet) :
    countOf .area (s.sent packets) + flag s.areaPushSent =
      (s.exchanges packets).countP (·.Accepts .area) +
        flag (s.afterPackets packets).areaPushSent := by
  have hbalance := sent_balance .area .area (fun _ => true) (fun s => flag s.areaPushSent) ?_ hs
    packets
  · simpa using hbalance
  intro s s' request outcome hs h
  rw [countOf_eq_count, h.commands, h.flags.2]
  cases request with
  | clientSession =>
    rw [answerCommands]
    split
    · simp [Command.value]
    · split <;> simp [Command.value]
  | bootstrapReady =>
    rw [answerCommands]
    by_cases hready : s.state = .accountPanelReady
    · simp [hready]
    · cases s.experimentalAreaPush <;> cases s.areaPushSent <;> simp [hready, Command.value, flag]
  | area => simp [answerCommands, Command.value]
  | _ => simp [answerCommands, Command.value]

theorem afterPackets_rank_le (s : LoginSession) (packets : List Packet) :
    s.state.rank ≤ (s.afterPackets packets).state.rank := by
  induction packets generalizing s with
  | nil => exact le_rfl
  | cons packet packets ih => exact (exchange_rank_le s packet).trans (ih _)

theorem rank_ready {state : SessionState} (h : SessionState.rank .accountPanelReady ≤ state.rank) :
    state = .accountPanelReady := by
  cases state <;> simp [SessionState.rank] at h ⊢

/-- `ACCOUNT_PANEL_READY` is never left, so it was reached if the run ends there. -/
theorem afterPackets_ready_iff {s : LoginSession} (hstate : s.state ≠ .accountPanelReady)
    (packets : List Packet) :
    (s.afterPackets packets).state = .accountPanelReady ↔
      ∃ x ∈ s.exchanges packets, x.after.state = .accountPanelReady := by
  induction packets generalizing s with
  | nil => simpa [afterPackets, exchanges] using hstate
  | cons packet packets ih =>
    rw [afterPackets, exchanges]
    simp only [List.mem_cons, exists_eq_or_imp]
    by_cases hready : (s.exchange packet).after.state = .accountPanelReady
    · have hrank := afterPackets_rank_le (s.exchange packet).after packets
      rw [hready] at hrank
      simp only [hready, true_or, iff_true]
      exact rank_ready hrank
    · rw [ih hready]
      simp only [hready, false_or]

theorem exchange_splash {s : LoginSession} (hs : s.Consistent) (packet : Packet) :
    (s.exchange packet).after.splashTransitionSent = true ↔
      s.splashTransitionSent = true ∨
        (s.experimentalSplashRevision.isSome ∧ (s.exchange packet).after.state = .bootstrap) := by
  have hsame : (s.exchange packet).after.experimentalSplashRevision =
    s.experimentalSplashRevision := (exchange_configuration s packet).1
  have hafter := hs.exchange packet
  by_cases hstate : (s.exchange packet).after.state = .bootstrap
  · have hconfigured := hs.configured
    rw [hafter.splashed hstate, hsame]
    simpa [hstate] using hconfigured
  · simp only [hstate, and_false, or_false]
    rcases exchange_cases_of_fits hs.fits packet with ⟨text, h⟩ |
      ⟨request, outcome, s', -, hanswer, h⟩ <;> rw [h] at hstate ⊢
    have hs' := answers_of_answer hanswer
    cases hs' with
    | greet => exact absurd rfl hstate
    | _ => rfl

/-- The splash flag is set in a run that enters `BOOTSTRAP` with a revision configured. -/
theorem afterPackets_splash_iff {s : LoginSession} (hs : s.Consistent) (packets : List Packet) :
    (s.afterPackets packets).splashTransitionSent = true ↔
      s.splashTransitionSent = true ∨ (s.experimentalSplashRevision.isSome ∧
        ∃ x ∈ s.exchanges packets, x.after.state = .bootstrap) := by
  induction packets generalizing s with
  | nil => simp [afterPackets, exchanges]
  | cons packet packets ih =>
    rw [afterPackets, exchanges, ih (hs.exchange packet), exchange_splash hs,
      (exchange_configuration s packet).1]
    simp only [List.mem_cons, exists_eq_or_imp, and_or_left, or_assoc]

theorem Answers.greets {s s' : LoginSession} {outcome : SessionOutcome}
    (h : Answers s .clientSession outcome s') (hstate : s.state ≠ .accountPanelReady) :
    outcome.outbound = s.greeting := by
  cases h with
  | silent _ hcommand => simp [silentCommands] at hcommand
  | reply _ hreply => simp [replies] at hreply
  | greet => rfl
  | session hready => exact absurd hready hstate

theorem versions_not_mem {s : LoginSession} {request : Command}
    (h : ¬ (request = .clientSession ∧ s.state ≠ .accountPanelReady)) :
    0xE2 ∉ s.answerCommands request := by
  cases request with
  | clientSession =>
    have hready : s.state = .accountPanelReady := by simpa using h
    simp [answerCommands, hready]
  | bootstrapReady =>
    rw [answerCommands]
    split <;> simp
  | _ => simp [answerCommands]

/-- The first version barrier of a run is followed at once by the splash transition. -/
theorem sent_splash_placement {s : LoginSession} (hs : s.Consistent) (revision : Int)
    (hrevision : s.experimentalSplashRevision = some revision)
    (hsplash : s.splashTransitionSent = false) (packets : List Packet) :
    (s.afterPackets packets).splashTransitionSent = false ∨ ∃ before after,
      s.sent packets = before ++ versionsPacket :: screenPacket revision :: after ∧
      ∀ p ∈ before, p.command ≠ 0xE2 := by
  induction packets generalizing s with
  | nil => exact .inl hsplash
  | cons packet packets ih =>
    have hsent : s.sent (packet :: packets) = (s.exchange packet).outbound ++
      (s.exchange packet).after.sent packets := rfl
    have hs1 := hs.exchange packet
    have hrevision1 := (exchange_configuration s packet).1.trans hrevision
    rw [hsent, afterPackets]
    rcases exchange_cases_of_fits hs.fits packet with ⟨text, h⟩ |
      ⟨request, outcome, s', -, hanswer, h⟩ <;> rw [h] at hs1 hrevision1 ⊢
    · exact ih hs1 hrevision1 hsplash
    have ha := answers_of_answer hanswer
    by_cases hgreet : request = .clientSession ∧ s.state ≠ .accountPanelReady
    · obtain ⟨rfl, hstate⟩ := hgreet
      right
      refine ⟨[sessionPacket], s'.sent packets, ?_, by simp [sessionPacket]⟩
      simp only [Exchange.outbound, ha.greets hstate, greeting, hrevision, hsplash]
      rfl
    · have hsplash1 : s'.splashTransitionSent = false := by
        rw [ha.flags.1, hsplash, decide_eq_false hgreet]
        rfl
      rcases ih hs1 hrevision1 hsplash1 with hnone | ⟨before, after, heq, hbefore⟩
      · exact .inl hnone
      right
      refine ⟨outcome.outbound ++ before, after, ?_, ?_⟩
      · simp only [Exchange.outbound, heq, List.append_assoc]
      intro p hp
      rcases List.mem_append.mp hp with hp | hp
      · have hmem := List.mem_map_of_mem (f := Packet.command) hp
        rw [ha.commands] at hmem
        intro hcommand
        rw [hcommand] at hmem
        exact versions_not_mem hgreet hmem
      · exact hbefore p hp

/-- An exchange answers an accepted request, or it sends nothing. -/
theorem exchange_commands {s : LoginSession} (hs : s.Consistent) (packet : Packet) :
    (∃ request outcome s', packet.command = request.value ∧ Answers s request outcome s' ∧
      s.exchange packet = ⟨s, packet, .ok outcome, s'⟩ ∧
      (s.exchange packet).outbound.map Packet.command = s.answerCommands request) ∨
    ((s.exchange packet).outbound = [] ∧ ∀ command, (s.exchange packet).Accepts command = false) := by
  rcases exchange_cases_of_fits hs.fits packet with ⟨text, h⟩ |
    ⟨request, outcome, s', hrequest, hanswer, h⟩
  · right
    rw [h]
    exact ⟨rfl, fun _ => rfl⟩
  · left
    have ha := answers_of_answer hanswer
    refine ⟨request, outcome, s', hrequest, ha, h, ?_⟩
    rw [h]
    exact ha.commands

/-- The commands the session ever sends. -/
def sentCommands : List Command :=
  [.handshake, .transportSync, .preloginStatus, .clientSession, .bootstrapVersions,
    .screenBootstrap, .bootstrapDa, .bootstrapE1, .bootstrapE0, .area]

theorem answerCommands_sent (s : LoginSession) (request : Command) :
    ∀ code ∈ s.answerCommands request, code ∈ sentCommands.map Command.value := by
  cases request with
  | clientSession =>
    rw [answerCommands]
    split
    · simp [sentCommands, Command.value]
    · split <;> simp [sentCommands, Command.value]
  | bootstrapReady =>
    rw [answerCommands]
    split <;> simp [sentCommands, Command.value]
  | _ => simp [answerCommands, sentCommands, Command.value]

theorem sent_known {s : LoginSession} (hs : s.Consistent) (packets : List Packet) :
    ∀ p ∈ s.sent packets, ∃ command ∈ sentCommands, p.command = command.value := by
  intro p hp
  obtain ⟨x, hx, hp⟩ := List.mem_flatMap.mp hp
  obtain ⟨s', packet, hs', rfl⟩ := mem_exchanges hs hx
  rcases exchange_commands hs' packet with ⟨request, _, _, -, -, -, hcommands⟩ | ⟨hnone, -⟩
  · have hmem := List.mem_map_of_mem (f := Packet.command) hp
    rw [hcommands] at hmem
    have hsent := answerCommands_sent s' request _ hmem
    obtain ⟨command, hcommand, hcode⟩ := List.mem_map.mp hsent
    exact ⟨command, hcommand, hcode.symm⟩
  · rw [hnone] at hp
    cases hp

/-- What an accepted exchange was asked for and what it sent. -/
theorem accepts_commands {s : LoginSession} (hs : s.Consistent) {packets : List Packet}
    {x : Exchange} (hx : x ∈ s.exchanges packets) {command : Command} (h : x.Accepts command) :
    ∃ outcome, Answers x.before command outcome x.after ∧ x.outbound = outcome.outbound ∧
      x.outbound.map Packet.command = x.before.answerCommands command := by
  obtain ⟨s', packet, hs', rfl⟩ := mem_exchanges hs hx
  rcases exchange_commands hs' packet with ⟨request, outcome, s'', hrequest, ha, heq, hcommands⟩ |
    ⟨-, hnone⟩
  · rw [heq] at h hcommands ⊢
    have hsame : request = command := by
      apply Command.value_injective
      rw [← hrequest]
      simpa [Exchange.Accepts] using h
    subst hsame
    exact ⟨outcome, ha, rfl, hcommands⟩
  · rw [hnone] at h
    cases h

/-- Over every run, rejected packets and all: what is sent, how often, and for which requests. -/
theorem response_accounting (key : HandshakeKey) (revision : Option Int) (areaPush : Bool)
    (hrevision : ∀ r ∈ revision, -128 ≤ r ∧ r ≤ 127) (packets : List Packet) :
    let s := create key revision areaPush
    let run := s.exchanges packets
    let sent := s.sent packets
    countOf .clientSession sent = run.countP (·.Accepts .clientSession) ∧
    countOf .bootstrapVersions sent = run.countP
      (fun x => x.Accepts .clientSession && x.before.state ≠ .accountPanelReady) ∧
    (∀ x ∈ run, x.Accepts .clientSession → x.before.state ≠ .accountPanelReady →
      ∃ more, x.outbound = sessionPacket :: versionsPacket :: more) ∧
    countOf .screenBootstrap sent ≤ 1 ∧
    (countOf .screenBootstrap sent = 1 ↔
      revision.isSome ∧ ∃ x ∈ run, x.after.state = .bootstrap) ∧
    (∀ r, revision = some r → countOf .screenBootstrap sent = 1 → ∃ before screen after,
      sent = before ++ versionsPacket :: screen :: after ∧
      (∀ p ∈ before, p.command ≠ 0xE2) ∧ screen.command = 0xC4 ∧
      ScreenBootstrapResponse.decodePayload screen.payload = .ok { revision := r }) ∧
    countOf .area sent = run.countP (·.Accepts .area) +
      (if areaPush ∧ ∃ x ∈ run, x.after.state = .accountPanelReady then 1 else 0) ∧
    (∀ command ∈ directCommands,
      countOf command sent = run.countP (·.Accepts command) ∧
      ∀ x ∈ run, x.Accepts command → x.outbound.map Packet.command = [command.value]) ∧
    ∀ p ∈ sent, ∃ command ∈ sentCommands, p.command = command.value := by
  intro s run sent
  have hs : s.Consistent := create_consistent key areaPush hrevision
  have hscreen : countOf .screenBootstrap sent =
      flag (s.afterPackets packets).splashTransitionSent := sent_screen hs packets
  have hsplash := afterPackets_splash_iff hs packets
  refine ⟨sent_session hs packets, sent_versions hs packets, ?_, ?_, ?_, ?_, ?_, ?_,
    sent_known hs packets⟩
  · intro x hx haccepts hstate
    obtain ⟨outcome, ha, hout, -⟩ := accepts_commands hs hx haccepts
    rw [hout, ha.greets hstate, greeting]
    split
    · exact ⟨_, rfl⟩
    · exact ⟨_, rfl⟩
  · rw [hscreen]
    cases (s.afterPackets packets).splashTransitionSent <;> decide
  · rw [hscreen, ← (show s.experimentalSplashRevision = revision from rfl)]
    rw [show s.splashTransitionSent = false from rfl] at hsplash
    simp only [Bool.false_eq_true, false_or] at hsplash
    rw [← hsplash]
    cases (s.afterPackets packets).splashTransitionSent <;> decide
  · intro r hr hone
    rcases sent_splash_placement hs r hr rfl packets with hunsent |
      ⟨before, after, heq, hbefore⟩
    · rw [hscreen, hunsent] at hone
      cases hone
    · exact ⟨before, screenPacket r, after, heq, hbefore, rfl,
        screenPacket_decode (hrevision r hr)⟩
  · have harea := sent_area hs packets
    have hready := afterPackets_ready_iff (s := s) (by simp [s, create]) packets
    have hpushed := (hs.afterPackets packets).pushed
    rw [hpushed, afterPackets_areaPush, show s.areaPushSent = false from rfl,
      show s.experimentalAreaPush = areaPush from rfl] at harea
    have hflag : flag (areaPush && decide ((s.afterPackets packets).state = .accountPanelReady)) =
        if areaPush ∧ ∃ x ∈ run, x.after.state = .accountPanelReady then 1 else 0 := by
      simp only [flag, Bool.and_eq_true, decide_eq_true_eq, hready, run]
    rw [hflag] at harea
    exact harea
  · intro command hcommand
    refine ⟨sent_direct hcommand hs packets, ?_⟩
    intro x hx haccepts
    obtain ⟨outcome, ha, hout, hcommands⟩ := accepts_commands hs hx haccepts
    rw [hcommands]
    simp only [directCommands, List.mem_cons, List.not_mem_nil, or_false] at hcommand
    rcases hcommand with rfl | rfl | rfl | rfl | rfl | rfl <;> rfl

/-- The handshake, two greetings, the ready request twice and an area request. -/
theorem response_accounting_two_greetings :
    countOf .screenBootstrap ((create .shipped (some (-3)) true).sent
      [⟨0xE5, []⟩, ⟨0xBB, [0, 0, 0, 0, 0]⟩, ⟨0xBB, [0, 0, 0, 0, 1]⟩, ⟨0xDB, []⟩, ⟨0xDB, []⟩,
        ⟨0xE4, [0]⟩]) ≤ 1 :=
  (response_accounting .shipped (some (-3)) true (by simp) _).2.2.2.1

end LoginSession
end Army3
