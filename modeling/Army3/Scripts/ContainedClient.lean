import Army3.Scripts.Isolation
import Mathlib.Data.List.Nodup

/-! The client of an isolated run: where it can have connected to in its whole life. -/

namespace Army3
namespace IsolatedRun

open EventRun

/-! ### Processes and connections -/

/-- No number is used twice, and every connection belongs to a process that runs. -/
structure World.Sound (world : World) : Prop where
  nodup : world.seen.Nodup
  owned : ∀ connection ∈ world.connections,
    connection.owningProcess ∈ world.processes.map Process.id

structure SameClients (world world' : World) : Prop where
  processes : world'.processes = world.processes
  ended : world'.ended = world.ended
  connections : world'.connections = world.connections

theorem SameClients.seen {world world' : World} (h : SameClients world world') :
    world'.seen = world.seen := by
  rw [World.seen, h.processes, h.ended, World.seen]

theorem SameClients.sound {world world' : World} (h : SameClients world world')
    (hsound : world.Sound) : world'.Sound := by
  refine ⟨?_, ?_⟩
  · rw [h.seen]
    exact hsound.nodup
  · rw [h.connections, h.processes]
    exact hsound.owned

section

variable {world : World} {id : Nat} {code : Int}

theorem World.not_running_of_ended (h : world.Sound) (hended : (id, code) ∈ world.ended) :
    id ∉ world.processes.map Process.id := fun hruns =>
  (List.nodup_append.mp h.nodup).2.2 id hruns id (List.mem_map_of_mem hended) rfl

theorem World.mem_endProcess {process : Process} :
    process ∈ (world.endProcess id code).processes ↔ process ∈ world.processes ∧ process.id ≠ id := by
  simp [World.endProcess]

theorem World.map_id_endProcess : (world.endProcess id code).processes.map Process.id =
    (world.processes.map Process.id).filter fun other => other ≠ id := by
  rw [List.filter_map]
  rfl

theorem World.seen_endProcess {other : Nat} (hruns : id ∈ world.processes.map Process.id) :
    other ∈ (world.endProcess id code).seen ↔ other ∈ world.seen := by
  rw [World.seen, World.map_id_endProcess, World.seen]
  simp only [World.endProcess, List.map_append, List.mem_append, List.mem_filter,
    List.map_cons, List.map_nil, List.mem_singleton, decide_eq_true_eq]
  constructor
  · rintro (⟨hmem, -⟩ | hmem | rfl)
    · exact .inl hmem
    · exact .inr hmem
    · exact .inl hruns
  · rintro (hmem | hmem)
    · by_cases hsame : other = id
      · exact .inr (.inr hsame)
      · exact .inl ⟨hmem, hsame⟩
    · exact .inr (.inl hmem)

theorem World.Sound.endProcess (h : world.Sound) (hruns : id ∈ world.processes.map Process.id) :
    (world.endProcess id code).Sound := by
  obtain ⟨hprocesses, hended, hapart⟩ := List.nodup_append.mp h.nodup
  refine ⟨?_, ?_⟩
  · rw [World.seen, World.map_id_endProcess]
    simp only [World.endProcess, List.map_append, List.map_cons, List.map_nil]
    refine List.nodup_append.mpr ⟨hprocesses.filter _, ?_, ?_⟩
    · refine List.nodup_append.mpr ⟨hended, List.nodup_singleton _, ?_⟩
      rintro other hother _ hid rfl
      obtain rfl := List.mem_singleton.mp hid
      exact hapart _ hruns _ hother rfl
    · rintro other hother _ hlast rfl
      obtain ⟨hother, hne⟩ := List.mem_filter.mp hother
      rcases List.mem_append.mp hlast with hlast | hlast
      · exact hapart _ hother _ hlast rfl
      · exact of_decide_eq_true hne (List.mem_singleton.mp hlast)
  · intro connection hmem
    obtain ⟨hmem, hne⟩ := List.mem_filter.mp hmem
    rw [World.map_id_endProcess]
    exact List.mem_filter.mpr ⟨h.owned connection hmem, hne⟩

end

/-! ### What happens beside the script -/

theorem World.Sound.happen {world : World} (h : world.Sound) (event : Event) :
    (world.happen event).Sound := by
  cases event with
  | turn answer => exact h
  | starts process =>
    simp only [World.happen]
    split
    · exact h
    · rename_i hnew
      refine ⟨?_, ?_⟩
      · have hperm : List.Perm
            ((world.processes ++ [process]).map Process.id ++ world.ended.map Prod.fst)
            (process.id :: world.seen) := by
          rw [List.map_append, List.append_assoc]
          exact List.perm_middle
        exact hperm.nodup_iff.mpr (List.nodup_cons.mpr ⟨hnew, h.nodup⟩)
      · intro connection hmem
        rw [List.map_append]
        exact List.mem_append_left _ (h.owned connection hmem)
  | exits id code =>
    simp only [World.happen]
    split
    · rename_i hruns
      exact h.endProcess hruns
    · exact h
  | connects connection profile =>
    simp only [World.happen]
    split
    · rename_i process hfound
      split
      · exact h
      · refine ⟨h.nodup, ?_⟩
        intro other hmem
        rcases List.mem_append.mp hmem with hmem | hmem
        · exact h.owned other hmem
        · obtain rfl := List.mem_singleton.mp hmem
          have howner : process.id = other.owningProcess := by
            simpa using List.find?_some hfound
          rw [← howner]
          exact List.mem_map_of_mem (List.mem_of_find?_eq_some hfound)
    · exact h
  | moves connection state =>
    refine ⟨h.nodup, ?_⟩
    intro other hmem
    obtain ⟨before, hbefore, rfl⟩ := List.mem_map.mp hmem
    have howner : (if before = connection then { before with state := state } else before).owningProcess =
        before.owningProcess := by
      split <;> rfl
    rw [howner]
    exact h.owned before hbefore
  | closes connection =>
    exact ⟨h.nodup, fun other hmem => h.owned other (List.mem_of_mem_filter hmem)⟩

theorem World.seen_happen {world : World} {event : Event} {id : Nat} (h : id ∈ world.seen) :
    id ∈ (world.happen event).seen := by
  cases event with
  | starts process =>
    simp only [World.happen]
    split
    · exact h
    · rw [World.seen, List.map_append, List.append_assoc]
      rcases List.mem_append.mp h with h | h
      · exact List.mem_append_left _ h
      · exact List.mem_append_right _ (List.mem_append_right _ h)
  | exits other code =>
    simp only [World.happen]
    split
    · rename_i hruns
      exact (World.seen_endProcess hruns).mpr h
    · exact h
  | connects connection profile =>
    simp only [World.happen]
    split
    · split <;> exact h
    · exact h
  | turn answer | moves connection state | closes connection => exact h

/-! ### What a turn of the script does with the client -/

/-- The outcomes that say something of a client. -/
def Outcome.Tells : Outcome → Prop
  | .ok _ | .error (.unexpected _) => True
  | .error _ => False

def Phase.outcome? : Phase → Option Outcome
  | .removeRules outcome | .restoreProfiles outcome | .ended outcome => some outcome
  | _ => none

/-- No client is being looked for, and none has been found. -/
def Phase.Quiet : Phase → Prop
  | .launch | .awaitClient | .openClient _ | .watch _ => False
  | .removeRules outcome | .restoreProfiles outcome | .ended outcome => ¬ outcome.Tells
  | _ => True

inductive ClientTurn (settings : Settings) (s s' : State) : Prop where
  | elsewhere (hsame : SameClients s.world s'.world) (hquiet : s'.phase.Quiet)
  | listed (hsame : SameClients s.world s'.world) (hphase : s'.phase = .launch)
      (hknown : ∀ process ∈ s.world.processes, process.executablePath = settings.clientExe →
        process.id ∈ s'.knownClientIds)
  | waits (hsame : SameClients s.world s'.world) (hwas : s.phase = .launch ∨ s.phase = .awaitClient)
      (hphase : s'.phase = .awaitClient) (hknown : s'.knownClientIds = s.knownClientIds)
  | found (process : Process) (hsame : SameClients s.world s'.world)
      (hwas : s.phase = .awaitClient) (hmem : process ∈ s.world.processes)
      (hnew : isNewClient settings s.knownClientIds process = true)
      (hphase : s'.phase = .openClient process.id)
  | follows (id : Nat) (hsame : SameClients s.world s'.world)
      (hwas : s.phase = .openClient id ∨ s.phase = .watch id) (hphase : s'.phase = .watch id)
  | gone (id : Nat) (hsame : SameClients s.world s'.world) (hwas : s.phase = .watch id)
      (hgone : id ∉ s.world.processes.map Process.id)
      (hphase : s'.phase = .removeRules (.ok ((s.world.ended.lookup id).getD 0)))
  | stopped (id : Nat) (hwas : s.phase = .watch id) (hruns : id ∈ s.world.processes.map Process.id)
      (hworld : s'.world = s.world.endProcess id (-1))
      (hphase : s'.phase = .removeRules (.error (.unexpected
        ((unexpected (connectionsOf s.world id)).map Connection.destination))))
  | cleans (outcome outcome' : Outcome) (hsame : SameClients s.world s'.world)
      (hwas : s.phase.outcome? = some outcome) (hphase : s'.phase.outcome? = some outcome')
      (htells : outcome'.Tells → outcome' = outcome)

section

variable {settings : Settings} {s : State} {answer : Answer}

theorem not_tells_of_check {e : RunError} (h : check settings = .error e) :
    ¬ Outcome.Tells (.error e) := by
  unfold check at h
  repeat' split at h
  all_goals cases h
  all_goals exact id

theorem SameClients.refl {world : World} : SameClients world world := ⟨rfl, rfl, rfl⟩

theorem clientTurn_enableTurn : ClientTurn settings s (enableTurn settings s answer) := by
  unfold enableTurn
  by_cases hrestore : s.profilesToRestore = []
  · rw [if_pos hrestore]
    exact .elsewhere .refl trivial
  by_cases hforbidden : settings.temporarilyEnableFirewallProfiles = false
  · rw [if_neg hrestore, if_pos hforbidden]
    exact .elsewhere .refl fun htells => htells
  rw [if_neg hrestore, if_neg hforbidden]
  cases answer with
  | succeeds | declines => exact .elsewhere ⟨rfl, rfl, rfl⟩ trivial
  | fails finished => exact .elsewhere ⟨rfl, rfl, rfl⟩ fun htells => htells

theorem clientTurn_restoreTurn {outcome : Outcome} (hphase : s.phase = .restoreProfiles outcome) :
    ClientTurn settings s (restoreTurn settings s outcome answer) := by
  have hwas : s.phase.outcome? = some outcome := by
    rw [hphase]
    rfl
  unfold restoreTurn
  by_cases hswitched : s.profilesToRestore ≠ [] ∧ settings.temporarilyEnableFirewallProfiles = true
  · rw [if_pos hswitched]
    cases answer with
    | succeeds | declines => exact .cleans outcome outcome ⟨rfl, rfl, rfl⟩ hwas rfl fun _ => rfl
    | fails finished => exact .elsewhere ⟨rfl, rfl, rfl⟩ fun htells => htells
  · rw [if_neg hswitched]
    exact .cleans outcome outcome .refl hwas rfl fun _ => rfl

theorem clientTurn_watchTurn {id : Nat} (hphase : s.phase = .watch id) :
    ClientTurn settings s (watchTurn settings s id answer) := by
  rcases watchTurn_cases settings s id answer with hturn | ⟨hruns, hturn⟩ | ⟨-, hturn⟩ |
    ⟨hgone, hturn⟩ <;> rw [hturn]
  · exact .elsewhere .refl fun htells => htells
  · exact .stopped id hphase hruns rfl rfl
  · exact .follows id .refl (.inr hphase) hphase
  · exact .gone id .refl hphase hgone rfl

theorem clientTurn_turn : ClientTurn settings s (turn settings s answer) := by
  cases hphase : s.phase with
  | preflight =>
    cases answer <;> simp only [turn, hphase]
    case fails => exact .elsewhere .refl fun htells => htells
    all_goals
      cases hcheck : check settings with
      | error e => exact .elsewhere .refl (not_tells_of_check hcheck)
      | ok _ => exact .elsewhere .refl trivial
  | readProfiles =>
    cases answer <;> simp only [turn, hphase]
    case fails => exact .elsewhere .refl fun htells => htells
    all_goals exact .elsewhere .refl trivial
  | enableProfiles =>
    simp only [turn, hphase]
    exact clientTurn_enableTurn
  | confirmProfiles | listExecutables =>
    cases answer <;> simp only [turn, hphase]
    case fails => exact .elsewhere .refl fun htells => htells
    all_goals
      split
      · exact .elsewhere .refl fun htells => htells
      · exact .elsewhere .refl trivial
  | testServer =>
    cases answer <;> simp only [turn, hphase]
    · exact .elsewhere .refl trivial
    · exact .elsewhere .refl fun htells => htells
    · exact .elsewhere .refl fun htells => htells
  | addRules left =>
    cases left with
    | nil =>
      simp only [turn, hphase]
      exact .elsewhere .refl trivial
    | cons rule left =>
      cases answer <;> simp only [turn, hphase]
      case fails => exact .elsewhere ⟨rfl, rfl, rfl⟩ fun htells => htells
      all_goals exact .elsewhere ⟨rfl, rfl, rfl⟩ trivial
  | listClients =>
    cases answer <;> simp only [turn, hphase]
    case fails => exact .elsewhere .refl fun htells => htells
    all_goals
      refine .listed .refl rfl fun process hmem hpath => ?_
      exact List.mem_map_of_mem (List.mem_filter.mpr ⟨hmem, by simpa using hpath⟩)
  | launch =>
    cases answer <;> simp only [turn, hphase]
    case fails => exact .elsewhere .refl fun htells => htells
    all_goals exact .waits .refl (.inl hphase) rfl rfl
  | awaitClient =>
    cases answer <;> simp only [turn, hphase]
    · split
      · rename_i candidate hfound
        exact .found candidate .refl hphase (List.mem_of_find?_eq_some hfound)
          (List.find?_some hfound) rfl
      · exact .waits .refl (.inr hphase) hphase rfl
    · exact .elsewhere .refl fun htells => htells
    · exact .elsewhere .refl fun htells => htells
  | openClient id =>
    cases answer <;> simp only [turn, hphase]
    case fails => exact .elsewhere .refl fun htells => htells
    all_goals
      split
      · exact .follows id .refl (.inl hphase) rfl
      · exact .elsewhere .refl fun htells => htells
  | watch id =>
    simp only [turn, hphase]
    exact clientTurn_watchTurn hphase
  | removeRules outcome =>
    simp only [turn, hphase]
    refine .cleans outcome outcome ⟨rfl, rfl, rfl⟩ ?_ rfl fun _ => rfl
    rw [hphase]
    rfl
  | restoreProfiles outcome =>
    simp only [turn, hphase]
    exact clientTurn_restoreTurn hphase
  | ended outcome =>
    simp only [turn, hphase]
    have hwas : s.phase.outcome? = some outcome := by
      rw [hphase]
      rfl
    exact .cleans outcome outcome .refl hwas hwas fun _ => rfl

end

theorem ClientTurn.keeps {settings : Settings} {s s' : State} (h : ClientTurn settings s s')
    (hsound : s.world.Sound) :
    s'.world.Sound ∧ ∀ id, id ∈ s'.world.seen ↔ id ∈ s.world.seen := by
  have hsame : SameClients s.world s'.world →
      s'.world.Sound ∧ ∀ id, id ∈ s'.world.seen ↔ id ∈ s.world.seen := by
    intro hsame
    refine ⟨hsame.sound hsound, fun id => ?_⟩
    rw [hsame.seen]
  cases h with
  | stopped id hwas hruns hworld hphase =>
    rw [hworld]
    exact ⟨hsound.endProcess hruns, fun other => World.seen_endProcess hruns⟩
  | elsewhere hworld | listed hworld | waits hworld | found _ hworld | follows _ hworld
  | gone _ hworld | cleans _ _ hworld => exact hsame hworld

/-! ### The whole life of the client -/

variable {settings : Settings}

theorem sound_step {s : State} (h : s.world.Sound) (event : Event) :
    (step settings s event).world.Sound ∧
      ∀ id ∈ s.world.seen, id ∈ (step settings s event).world.seen := by
  rcases step_cases settings s event with ⟨answer, -, hstep⟩ | hstep <;> rw [hstep]
  · have hturn : ClientTurn settings s (turn settings s answer) := clientTurn_turn
    obtain ⟨hsound, hseen⟩ := hturn.keeps h
    exact ⟨hsound, fun id => (hseen id).mpr⟩
  · exact ⟨h.happen event, fun id => World.seen_happen⟩

/-- What is promised of the process with the number, at one moment. -/
structure Within (settings : Settings) (id : Nat) (s : State) : Prop where
  process : ∀ process ∈ s.world.processes, process.id = id →
    process.executablePath = settings.clientExe ∧ s.phase.Isolating
  connection : ∀ connection ∈ s.world.connections, connection.owningProcess = id →
    connection.remoteAddress.Loopback

/-- The process has run only as the client and under the rules, and has been connected to
loopback addresses only. -/
def Contained (settings : Settings) (s : State) (events : List Event) (id : Nat) : Prop :=
  Throughout (step settings) (Within settings id) s events

/-- What an outcome says of the client. -/
def Accounts (contained : Nat → Prop) (world : World) : Outcome → Prop
  | .ok code => ∃ id, (id, code) ∈ world.ended ∧ contained id
  | .error (.unexpected destinations) => (∃ id code, (id, code) ∈ world.ended ∧ contained id) ∧
      ∀ destination ∈ destinations, destination.1.Loopback
  | .error _ => True

def Tracks (settings : Settings) (contained : Nat → Prop) (s : State) : Prop :=
  match s.phase with
  | .launch | .awaitClient => ∀ process ∈ s.world.processes,
      isNewClient settings s.knownClientIds process = true → contained process.id
  | .openClient id | .watch id => id ∈ s.world.seen ∧ contained id
  | .removeRules outcome | .restoreProfiles outcome | .ended outcome =>
      Accounts contained s.world outcome
  | _ => True

section

variable {s s' : State} {id : Nat} {contained contained' : Nat → Prop}

theorem within_of_not_seen (hsound : s.world.Sound) (h : id ∉ s.world.seen) :
    Within settings id s where
  process := by
    rintro process hmem rfl
    exact absurd (List.mem_append_left _ (List.mem_map_of_mem hmem)) h
  connection := by
    rintro connection hmem rfl
    exact absurd (List.mem_append_left _ (hsound.owned connection hmem)) h

theorem Within.of_not_running (hconnection : ∀ connection ∈ s.world.connections,
      connection.owningProcess = id → connection.remoteAddress.Loopback)
    (h : id ∉ s.world.processes.map Process.id) : Within settings id s where
  process := by
    rintro process hmem rfl
    exact absurd (List.mem_map_of_mem hmem) h
  connection := hconnection

theorem Within.same (h : Within settings id s) (hsame : SameClients s.world s'.world)
    (hphase : s'.phase.Isolating) : Within settings id s' where
  process := by
    intro process hmem hid
    rw [hsame.processes] at hmem
    exact ⟨(h.process process hmem hid).1, hphase⟩
  connection := by
    rw [hsame.connections]
    exact h.connection

/-- Once it has ended, nothing that happens matters to it. -/
theorem Within.ended {code : Int} (h : Within settings id s) (hsound : s.world.Sound)
    (hended : (id, code) ∈ s.world.ended) (hsame : SameClients s.world s'.world) :
    Within settings id s' := by
  refine .of_not_running ?_ ?_
  · rw [hsame.connections]
    exact h.connection
  · rw [hsame.processes]
    exact World.not_running_of_ended hsound hended

theorem isNewClient_iff {known : List Nat} {process : Process} :
    isNewClient settings known process = true ↔
      process.executablePath = settings.clientExe ∧ process.id ∉ known := by
  simp [isNewClient]

theorem mem_of_lookup {entries : List (Nat × Int)} (h : id ∈ entries.map Prod.fst) :
    (id, (entries.lookup id).getD 0) ∈ entries := by
  induction entries with
  | nil => exact absurd h List.not_mem_nil
  | cons entry entries ih =>
    obtain ⟨other, code⟩ := entry
    by_cases hsame : id = other
    · subst hsame
      simp
    · rw [List.lookup_cons, beq_false_of_ne hsame]
      refine List.mem_cons_of_mem _ (ih ?_)
      simpa [hsame] using h

theorem Accounts.imp {world world' : World} {outcome : Outcome}
    (himp : ∀ id code, (id, code) ∈ world.ended → contained id → contained' id)
    (hended : ∀ entry ∈ world.ended, entry ∈ world'.ended) (h : Accounts contained world outcome) :
    Accounts contained' world' outcome := by
  cases outcome with
  | ok code =>
    obtain ⟨id, hmem, hid⟩ := h
    exact ⟨id, hended _ hmem, himp id code hmem hid⟩
  | error e =>
    cases e with
    | unexpected destinations =>
      obtain ⟨⟨id, code, hmem, hid⟩, hall⟩ := h
      exact ⟨⟨id, code, hended _ hmem, himp id code hmem hid⟩, hall⟩
    | thrown text | cmdlet => trivial

theorem accounts_of_not_tells {world : World} {outcome : Outcome} (h : ¬ outcome.Tells) :
    Accounts contained world outcome := by
  cases outcome with
  | ok code => exact absurd trivial h
  | error e =>
    cases e with
    | unexpected destinations => exact absurd trivial h
    | thrown text | cmdlet => trivial

theorem Tracks.of_outcome {outcome : Outcome} (hphase : s.phase.outcome? = some outcome) :
    Tracks settings contained s ↔ Accounts contained s.world outcome := by
  unfold Tracks
  revert hphase
  cases s.phase with
  | removeRules outcome' | restoreProfiles outcome' | ended outcome' =>
    intro hphase
    obtain rfl := Option.some.inj hphase
    exact Iff.rfl
  | _ =>
    intro hphase
    cases hphase

theorem Tracks.of_quiet (h : s.phase.Quiet) : Tracks settings contained s := by
  unfold Tracks
  revert h
  cases s.phase with
  | removeRules outcome | restoreProfiles outcome | ended outcome => exact accounts_of_not_tells
  | launch | awaitClient | openClient _ | watch _ => exact fun h => h.elim
  | _ => exact fun _ => trivial

/-- One turn: who is followed stays within the bounds. -/
theorem tracks_turn (hturn : ClientTurn settings s s') (hsound : s.world.Sound)
    (h : Tracks settings contained s) (hnow : ∀ id, contained id → Within settings id s)
    (hnext : ∀ id, contained id → Within settings id s' → contained' id) :
    Tracks settings contained' s' := by
  cases hturn with
  | elsewhere hsame hquiet => exact .of_quiet hquiet
  | listed hsame hphase hknown =>
    rw [Tracks, hphase]
    intro process hmem hnew
    rw [hsame.processes] at hmem
    obtain ⟨hpath, hunknown⟩ := isNewClient_iff.mp hnew
    exact absurd (hknown process hmem hpath) hunknown
  | waits hsame hwas hphase hknown =>
    have hbefore : ∀ process ∈ s.world.processes,
        isNewClient settings s.knownClientIds process = true → contained process.id := by
      rcases hwas with hwas | hwas <;> rwa [Tracks, hwas] at h
    rw [Tracks, hphase, hknown, hsame.processes]
    intro process hmem hnew
    have hid := hbefore process hmem hnew
    refine hnext _ hid ((hnow _ hid).same hsame ?_)
    rw [hphase]
    trivial
  | found process hsame hwas hmem hnew hphase =>
    rw [Tracks, hwas] at h
    rw [Tracks, hphase, hsame.seen]
    have hid := h process hmem hnew
    refine ⟨List.mem_append_left _ (List.mem_map_of_mem hmem), hnext _ hid ((hnow _ hid).same hsame ?_)⟩
    rw [hphase]
    trivial
  | follows id hsame hwas hphase =>
    have hbefore : id ∈ s.world.seen ∧ contained id := by
      rcases hwas with hwas | hwas <;> rwa [Tracks, hwas] at h
    rw [Tracks, hphase, hsame.seen]
    refine ⟨hbefore.1, hnext _ hbefore.2 ((hnow _ hbefore.2).same hsame ?_)⟩
    rw [hphase]
    trivial
  | gone id hsame hwas hgone hphase =>
    rw [Tracks, hwas] at h
    obtain ⟨hseen, hid⟩ := h
    rw [Tracks, hphase]
    have hended := mem_of_lookup ((List.mem_append.mp hseen).resolve_left hgone)
    refine ⟨id, ?_, hnext _ hid ((hnow _ hid).ended hsound hended hsame)⟩
    rw [hsame.ended]
    exact hended
  | stopped id hwas hruns hworld hphase =>
    rw [Tracks, hwas] at h
    rw [Tracks, hphase]
    have hid := h.2
    refine ⟨⟨id, -1, ?_, hnext _ hid (.of_not_running ?_ ?_)⟩, ?_⟩
    · rw [hworld]
      exact List.mem_append_right _ (List.mem_singleton_self _)
    · rw [hworld]
      intro connection hmem
      exact (hnow _ hid).connection connection (List.mem_of_mem_filter hmem)
    · rw [hworld, World.map_id_endProcess]
      simp
    · intro destination hmem
      obtain ⟨connection, hconnection, rfl⟩ := List.mem_map.mp hmem
      obtain ⟨hlive, howner⟩ := List.mem_filter.mp (List.mem_of_mem_filter hconnection)
      exact (hnow _ hid).connection connection hlive (of_decide_eq_true howner).1
  | cleans outcome outcome' hsame hwas hphase htells =>
    rw [Tracks.of_outcome hphase]
    by_cases htold : outcome'.Tells
    · rw [htells htold]
      rw [Tracks.of_outcome hwas] at h
      refine h.imp (fun id code hmem hid => ?_) ?_
      · exact hnext _ hid ((hnow _ hid).ended hsound hmem hsame)
      · rw [hsame.ended]
        exact fun _ hmem => hmem
    · exact accounts_of_not_tells htold

/-- One event beside the script: the rules keep the client off other addresses. -/
theorem within_happen {event : Event} (h : Within settings id s) (hseen : id ∈ s.world.seen)
    (hblocks : s.phase.Isolating → ∀ profile address, ¬ address.Loopback →
      s.world.Blocks ⟨profile, settings.clientExe, 6, address⟩) :
    Within settings id (s.inWorld (s.world.happen event)) := by
  cases event with
  | turn answer => exact h
  | starts process =>
    simp only [World.happen]
    split
    · exact h
    · rename_i hnew
      refine ⟨?_, h.connection⟩
      intro other hmem hid
      rcases List.mem_append.mp hmem with hmem | hmem
      · exact h.process other hmem hid
      · obtain rfl := List.mem_singleton.mp hmem
        exact absurd (hid ▸ hseen) hnew
  | exits other code =>
    simp only [World.happen]
    split
    · refine ⟨fun process hmem => h.process process (World.mem_endProcess.mp hmem).1, ?_⟩
      exact fun connection hmem => h.connection connection (List.mem_of_mem_filter hmem)
    · exact h
  | connects connection profile =>
    simp only [World.happen]
    split
    · rename_i process hfound
      split
      · exact h
      · rename_i hopen
        refine ⟨h.process, ?_⟩
        intro other hmem howner
        rcases List.mem_append.mp hmem with hmem | hmem
        · exact h.connection other hmem howner
        · obtain rfl := List.mem_singleton.mp hmem
          have hid : process.id = other.owningProcess := by
            simpa using List.find?_some hfound
          obtain ⟨hpath, hphase⟩ :=
            h.process process (List.mem_of_find?_eq_some hfound) (hid.trans howner)
          by_contra houtside
          rw [hpath] at hopen
          exact hopen (hblocks hphase profile _ houtside)
    · exact h
  | moves connection state =>
    refine ⟨h.process, ?_⟩
    intro other hmem howner
    obtain ⟨before, hbefore, rfl⟩ := List.mem_map.mp hmem
    have hsame : (if before = connection then { before with state := state } else before).owningProcess =
          before.owningProcess ∧
        (if before = connection then { before with state := state } else before).remoteAddress =
          before.remoteAddress := by
      split <;> exact ⟨rfl, rfl⟩
    rw [hsame.2]
    exact h.connection before hbefore (hsame.1.symm.trans howner)
  | closes connection =>
    exact ⟨h.process, fun other hmem => h.connection other (List.mem_of_mem_filter hmem)⟩

/-- A process that has just started is new, so that all before it is within the bounds. -/
theorem within_started {event : Event} {process : Process} (hsound : s.world.Sound)
    (hmem : process ∈ (s.world.happen event).processes) (hnew : process ∉ s.world.processes)
    (hpath : process.executablePath = settings.clientExe) (hphase : s.phase.Isolating) :
    process.id ∉ s.world.seen ∧
      Within settings process.id (s.inWorld (s.world.happen event)) := by
  cases event with
  | turn answer | moves connection state | closes connection => exact absurd hmem hnew
  | exits id code =>
    simp only [World.happen] at hmem
    split at hmem
    · exact absurd (World.mem_endProcess.mp hmem).1 hnew
    · exact absurd hmem hnew
  | connects connection profile =>
    simp only [World.happen] at hmem
    split at hmem
    · split at hmem <;> exact absurd hmem hnew
    · exact absurd hmem hnew
  | starts started =>
    simp only [World.happen] at hmem ⊢
    split at hmem
    · exact absurd hmem hnew
    · rename_i hfresh
      obtain rfl := List.mem_singleton.mp ((List.mem_append.mp hmem).resolve_left hnew)
      rw [if_neg hfresh]
      have hbefore : Within settings process.id s := within_of_not_seen hsound hfresh
      refine ⟨hfresh, ?_, hbefore.connection⟩
      intro other hother hid
      rcases List.mem_append.mp hother with hother | hother
      · exact absurd (hid ▸ List.mem_append_left _ (List.mem_map_of_mem hother)) hfresh
      · obtain rfl := List.mem_singleton.mp hother
        exact ⟨hpath, hphase⟩

theorem ended_happen {world : World} {event : Event} {entry : Nat × Int}
    (h : entry ∈ world.ended) : entry ∈ (world.happen event).ended := by
  cases event with
  | exits id code =>
    simp only [World.happen]
    split
    · exact List.mem_append_left _ h
    · exact h
  | starts process =>
    simp only [World.happen]
    split <;> exact h
  | connects connection profile =>
    simp only [World.happen]
    split
    · split <;> exact h
    · exact h
  | turn answer | moves connection state | closes connection => exact h

theorem tracks_happen {event : Event} (hsound : s.world.Sound) (h : Tracks settings contained s)
    (hnext : ∀ id, contained id → id ∈ s.world.seen → contained' id)
    (hstarts : ∀ id, id ∉ s.world.seen → Within settings id (s.inWorld (s.world.happen event)) →
      contained' id) :
    Tracks settings contained' (s.inWorld (s.world.happen event)) := by
  have houtcome : ∀ outcome, Accounts contained s.world outcome →
      Accounts contained' (s.world.happen event) outcome := by
    intro outcome haccounts
    refine haccounts.imp (fun id code hmem hid => hnext id hid ?_) fun entry => ended_happen
    exact List.mem_append_right _ (List.mem_map_of_mem hmem)
  have hwaiting : s.phase.Isolating → (∀ process ∈ s.world.processes,
        isNewClient settings s.knownClientIds process = true → contained process.id) →
      ∀ process ∈ (s.world.happen event).processes,
        isNewClient settings s.knownClientIds process = true → contained' process.id := by
    intro hphase hbefore process hmem hnew
    by_cases hran : process ∈ s.world.processes
    · exact hnext _ (hbefore process hran hnew) (List.mem_append_left _ (List.mem_map_of_mem hran))
    · obtain ⟨hfresh, hwithin⟩ :=
        within_started hsound hmem hran (isNewClient_iff.mp hnew).1 hphase
      exact hstarts _ hfresh hwithin
  unfold Tracks at h ⊢
  change match s.phase with
    | .launch | .awaitClient => ∀ process ∈ (s.world.happen event).processes,
        isNewClient settings s.knownClientIds process = true → contained' process.id
    | .openClient id | .watch id => id ∈ (s.world.happen event).seen ∧ contained' id
    | .removeRules outcome | .restoreProfiles outcome | .ended outcome =>
        Accounts contained' (s.world.happen event) outcome
    | _ => True
  cases hphase : s.phase with
  | launch | awaitClient =>
    rw [hphase] at h hwaiting
    exact hwaiting trivial h
  | openClient id | watch id =>
    rw [hphase] at h
    exact ⟨World.seen_happen h.1, hnext id h.2 h.1⟩
  | removeRules outcome | restoreProfiles outcome | ended outcome =>
    rw [hphase] at h
    exact houtcome outcome h
  | _ => trivial

end

variable {s : State} {events : List Event} {outcome : Outcome}

theorem Begins.sound (h : Begins settings s) : s.world.Sound := ⟨h.nodup, h.owned⟩

theorem sound_run (h : Begins settings s) (events : List Event) :
    (run (step settings) s events).world.Sound := by
  have hkeeps : ∀ s event, s.world.Sound → (step settings s event).world.Sound :=
    fun s event hsound => (sound_step hsound event).1
  exact invariant hkeeps h.sound events

/-- Who has not run yet has not run before. -/
theorem contained_of_not_seen (h : Begins settings s) {id : Nat}
    (hfresh : id ∉ (run (step settings) s events).world.seen) : Contained settings s events id := by
  intro done hdone
  refine within_of_not_seen (sound_run h done) fun hseen => hfresh ?_
  have hkeeps : ∀ s event, s.world.Sound ∧ id ∈ s.world.seen →
      (step settings s event).world.Sound ∧ id ∈ (step settings s event).world.seen := by
    rintro s event ⟨hsound, hmem⟩
    exact ⟨(sound_step hsound event).1, (sound_step hsound event).2 id hmem⟩
  exact (stays hkeeps hdone ⟨sound_run h done, hseen⟩).2

theorem Inv.blocks_client {start : World} {disturbed : Prop} (h : Inv settings start disturbed s)
    (hfresh : start.ownRules settings.ruleGroup = []) (hphase : s.phase.Isolating)
    {profile : ProfileName} {address : Address} (houtside : ¬ address.Loopback) :
    s.world.Blocks ⟨profile, settings.clientExe, 6, address⟩ := by
  obtain ⟨-, hunder, -⟩ := h.isolating hphase
  exact (h.blocks_iff hfresh hphase).mpr (.inl ⟨hunder.client, houtside⟩)

theorem tracks_run (h : Begins settings s) (events : List Event) :
    Tracks settings (Contained settings s events) (run (step settings) s events) := by
  induction events using List.reverseRecOn with
  | nil =>
    rw [Tracks, show (run (step settings) s []).phase = .preflight from h.phase]
    trivial
  | append_singleton events event ih =>
    have hsound := sound_run h events
    have hlonger : ∀ id, Contained settings s events id →
        Within settings id (run (step settings) s (events ++ [event])) →
          Contained settings s (events ++ [event]) id :=
      fun id hid hlast => throughout_concat.mpr ⟨hid, hlast⟩
    rw [run_concat] at hlonger ⊢
    rcases step_cases settings (run (step settings) s events) event with
      ⟨answer, -, hstep⟩ | hstep <;> rw [hstep] at hlonger ⊢
    · exact tracks_turn clientTurn_turn hsound ih (fun id hid => hid.last) hlonger
    · refine tracks_happen hsound ih (fun id hid hseen => hlonger id hid ?_) ?_
      · refine within_happen hid.last hseen fun hphase profile address houtside => ?_
        exact (inv_run h events).blocks_client h.fresh hphase houtside
      · exact fun id hfresh hlast => hlonger id (contained_of_not_seen h hfresh) hlast

end IsolatedRun
end Army3
