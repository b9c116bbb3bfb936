import FeatureFlags.Proofs.History.Session
import FeatureFlags.Proofs.Turn

/-!
The counters and the answers of a session.

A session keeps its turns (`Session.Transcript`), and at its end each counter of the domain is the
sum of what the turns have added to it (`Session.balanced_run`).  The turns count environments, and
the commands what they have written to; for this no project may list an id twice, and that is so
throughout a session, whatever fails in it (`Session.unrepeated_run`).
-/

namespace FeatureFlags

open Store

/-! ### Ids that are listed once -/

/-- A program asks for nothing but what its operations may be asked for. -/
theorem Program.Uses.asks {α : Type} {allowed : Store.Method → Prop} {asked : Store.Request → Prop}
    {given : (request : Store.Request) → request.Reply → Prop} {program : Program α}
    (h : program.Uses allowed) (hasked : ∀ request, allowed request.method → asked request) :
    program.Asks asked given := by
  induction program with
  | done value => exact trivial
  | call request resume ih => exact ⟨hasked request h.1, fun reply _ => ih reply (h.2 reply)⟩
  | readClock resume ih => exact fun now => ih now (h now)
  | newId resume ih => exact fun id => ih id (h id)
  | newKey resume ih => exact fun key => ih key (h key)
  | count series amount next ih => exact ih h

namespace Store

variable {s s' : Store} {now : Nat → Timestamp}

/-- A project that is inserted lists no id twice. -/
def Request.InsertsUnrepeated (request : Request) : Prop :=
  ∀ project, request = .insertProject project → project.environmentIds.Nodup

theorem Unrepeated.insert (h : s.Unrepeated) {name : String} {project : Project}
    (hids : project.environmentIds.Nodup) :
    Unrepeated { s with projects := s.projects.insert name project } := by
  intro other ids hother
  rw [links_insert] at hother
  split at hother
  · exact Option.some.inj hother ▸ hids
  · exact h other ids hother

theorem nodup_enlist {project : Project} (h : project.environmentIds.Nodup) (id : String) :
    (project.enlist id).environmentIds.Nodup := by
  rw [Project.enlist]
  split
  case isTrue => exact h
  case isFalse hid =>
    refine List.nodup_append.2 ⟨h, by simp, ?_⟩
    rintro old hold new hnew rfl
    exact hid (List.mem_singleton.1 hnew ▸ hold)

theorem Unrepeated.perform {request : Request} {reply : request.Reply} (h : s.Unrepeated)
    (hasked : request.InsertsUnrepeated) (hs : s.perform now request = .ok (reply, s')) :
    s'.Unrepeated := by
  cases hrelinks : request.method.relinks with
  | false =>
    intro name ids hids
    rw [links_perform hs hrelinks] at hids
    exact h name ids hids
  | true =>
    cases request with
    | insertProject project =>
      obtain ⟨-, rfl⟩ := insertProject_eq_ok.1 (silent_eq_ok.1 hs)
      exact h.insert (hasked project rfl)
    | deleteProject name =>
      obtain ⟨-, rfl⟩ := deleteProject_eq_ok.1 hs
      intro other ids hother
      rw [links_erase] at hother
      split at hother
      · cases hother
      · exact h other ids hother
    | attachEnvironment name id =>
      obtain ⟨-, project, hp, rfl⟩ := attachEnvironment_eq_ok.1 (silent_eq_ok.1 hs)
      exact h.insert (nodup_enlist (h name _ (by rw [links, hp, Option.map_some])) id)
    | detachEnvironment id =>
      intro name ids hids
      rw [(detachEnvironment_eq_ok hs).2.links] at hids
      obtain ⟨before, hbefore, rfl⟩ := Option.map_eq_some_iff.1 hids
      exact (h name before hbefore).filter _
    | _ => cases hrelinks

end Store

/-- A new project lists nothing. -/
theorem Command.asks_insertsUnrepeated (command : Command) :
    command.program.Asks Store.Request.InsertsUnrepeated fun _ _ => True := by
  cases command with
  | createProject name =>
    intro now id
    refine Action.asks_store ?_ fun _ _ => trivial
    rintro project ⟨⟩
    exact List.nodup_nil
  | _ =>
    refine (program_uses _).asks fun request hmethod => ?_
    rintro project rfl
    simp [methods, Store.Request.method] at hmethod

theorem Session.unrepeated_run (options : Service.Options) (supply : Supply)
    (events : List Event) : (run options supply events).store.Unrepeated := by
  refine kept ?_ (fun {request command p} _ h => ?_) (fun _ _ h => h) events
  · intro name ids h
    cases h
  · exact command.asks_insertsUnrepeated.run
      (fun h hasked hs => ⟨Unrepeated.perform h hasked hs, trivial⟩) h

/-! ### Sessions -/

namespace Session

/-- A service, and the turns that have led to it, the latest first. -/
structure Transcript where
  service : ServiceState
  turns : List Turn

variable (options : Service.Options) (supply : Supply)

namespace Transcript

/-- Goes on with one event. -/
def meet (t : Transcript) (event : Event) : Transcript where
  service := Session.meet options supply t.service event
  turns :=
    match event with
    | .request request =>
      ⟨t.service, request, (Service.answer options supply request t.service).1⟩ :: t.turns
    | _ => t.turns

/-- The transcript of a session. -/
def run (events : List Event) : Transcript := events.foldl (meet options supply) ⟨.fresh, []⟩

theorem run_concat (events : List Event) (event : Event) :
    run options supply (events ++ [event])
      = (run options supply events).meet options supply event := by
  rw [run, List.foldl_append]
  rfl

theorem service_run (events : List Event) :
    (run options supply events).service = Session.run options supply events := by
  induction events using List.reverseRecOn with
  | nil => rfl
  | append_singleton events event ih =>
    rw [run_concat, Session.run_concat, ← ih]
    rfl

end Transcript

/-- The counters of the domain are what the turns have added to them. -/
structure Balanced (t : Transcript) : Prop where
  /-- Evaluations count the results that answers have shown, by their status. -/
  evaluations : ∀ status, t.service.counters.value (.flagEvaluations status)
    = (t.turns.map (·.results options status)).sum
  /-- Cascades that were not cut short count the environments that they wrote to. -/
  environments : ∀ operation, t.service.counters.value (.cascadeEnvironments operation)
    = (t.turns.map (·.written options operation)).sum
  /-- The others count the requests that were told so. -/
  failures : ∀ operation, t.service.counters.value (.cascadeFailures operation)
    = t.turns.countP (·.FailsCascade options operation)
  /-- Links that failed are counted wherever the store has failed to make or to end one. -/
  links : ∀ operation, t.service.counters.value (.projectLinkFailures operation)
    = (t.turns.map (·.failures options supply operation.method)).sum

variable {options supply}

/-- One more turn keeps the balance. -/
theorem Balanced.turn {t : Transcript} (h : Balanced options supply t)
    (hs : t.service.store.Unrepeated) (request : Http.Request) :
    Balanced options supply (t.meet options supply (.request request)) := by
  have haccounts := Service.accounts_answer options supply request hs
  have hvalue (series : Series) : (t.meet options supply (.request request)).service.counters.value
      series = t.service.counters.value series
        + Mark.total series ((Service.handle options request).marks supply t.service) :=
    Service.value_answer options supply request t.service series
  constructor
  · intro status
    rw [hvalue, h.evaluations, haccounts.results, Nat.add_comm]
    rfl
  · intro operation
    rw [hvalue, h.environments, haccounts.written, Nat.add_comm]
    rfl
  · intro operation
    rw [hvalue, h.failures, haccounts.failures, Transcript.meet, List.countP_cons]
    simp only [decide_eq_true_eq]
  · intro operation
    rw [hvalue, h.links, haccounts.links, Nat.add_comm]
    rfl

/-- **The counters balance with the answers**, at every point of every session, whatever fails in
it. -/
theorem balanced_run (options : Service.Options) (supply : Supply) (events : List Event) :
    Balanced options supply (Transcript.run options supply events) := by
  induction events using List.reverseRecOn with
  | nil => constructor <;> intro _ <;> rfl
  | append_singleton events event ih =>
    have hs := unrepeated_run options supply events
    rw [← Transcript.service_run] at hs
    rw [Transcript.run_concat]
    cases event with
    | request request => exact ih.turn hs request
    | failEnvironmentWrites fail => exact ⟨ih.evaluations, ih.environments, ih.failures, ih.links⟩
    | failProjectLinks fail => exact ⟨ih.evaluations, ih.environments, ih.failures, ih.links⟩
    | failOperation method fault =>
      exact ⟨ih.evaluations, ih.environments, ih.failures, ih.links⟩

/-- A flag that reaches no environment when it is added, and one when it is sent again. -/
example :
    let post (target body : String) : Event := .request ⟨"POST", target, [], body.toUTF8.toList⟩
    let events := [post "/admin/projects" "\x7b\"name\":\"storefront\"\x7d",
      post "/admin/projects/storefront" "\x7b\"name\":\"staging01\"\x7d",
      .failEnvironmentWrites true,
      post "/admin/projects/storefront/flags" "\x7b\"name\":\"darkmode\",\"default\":true\x7d",
      .failEnvironmentWrites false, post "/admin/projects/storefront/flags/darkmode/resync" ""]
    let t := Transcript.run ⟨10, true⟩ Supply.counting events
    t.turns.map (·.response.status) = [200, 500, 201, 201] ∧
      t.service.counters.value (.cascadeFailures .set) = 1 ∧
      t.service.counters.value (.cascadeEnvironments .set) = 1 := by decide +kernel

end Session

end FeatureFlags
