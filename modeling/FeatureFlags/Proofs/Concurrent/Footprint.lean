import FeatureFlags.Proofs.Running
import FeatureFlags.Proofs.Store.Fields

/-!
Footprints.

A request is confined to a footprint if it looks at no fields but those that it touches and changes
none but those that it writes: from stores that agree on the touched fields it ends in the same
way, in stores that agree on them again (`Store.Request.Confined`).  A program is confined if its
requests are, and if what it makes of the replies also depends on the touched fields alone
(`Program.Confined`).  Then its steps and its runs are the same beside others that keep away from
its footprint, and they keep everything outside of it (`Program.Confined.step`,
`Program.Confined.run`).

Programs are compared with their results forgotten but for the errors (`Action.verdict`), as a
result may show fields that others write.
-/

namespace FeatureFlags

variable {α : Type} {touched written : Field → Prop}

/-! ### Requests -/

namespace Store

variable {s s' t t' : Store} {now now' : Nat → Timestamp}

/-- Two ends of one request: the same failure, or stores that agree. -/
inductive Alike {β : Type} (fields : Field → Prop) :
    Except StoreError (β × Store) → Except StoreError (β × Store) → Prop where
  | failed (e : StoreError) : Alike fields (.error e) (.error e)
  | succeeded {result result' : β} {s t : Store} (h : s.AgreeOn fields t) :
      Alike fields (.ok (result, s)) (.ok (result', t))

/-- The request looks at the touched fields alone, and changes the written ones alone. -/
structure Request.Confined (touched written : Field → Prop) (request : Request) : Prop where
  alike : ∀ {s t : Store} (now now' : Nat → Timestamp), s.AgreeOn touched t →
    Alike touched (s.perform now request) (t.perform now' request)
  kept : ∀ {s s' : Store} {now : Nat → Timestamp} {reply : request.Reply},
    s.perform now request = .ok (reply, s') →
    ∀ field, ¬ written field → s'.read field = s.read field

/-- A flag that is written to the same holders of two stores agrees after it, if the rules do. -/
theorem Assigned.agreeOn {holders holders' : Holder → Prop} {flag : String}
    {rule rule' : Option FlagRule} (hs : Assigned holders flag rule s s')
    (ht : Assigned holders' flag rule' t t') (hst : s.AgreeOn touched t)
    (hsame : ∀ holder, holders holder ↔ holders' holder)
    (hrules : ∀ holder facet, holders holder → touched (.flag holder flag facet) →
      facet.read rule = facet.read rule') : s'.AgreeOn touched t' := by
  intro field htouched
  by_cases hfield : ∃ holder facet, holders holder ∧ field = .flag holder flag facet
  · obtain ⟨holder, facet, hholder, rfl⟩ := hfield
    show facet.read (s'.flag holder flag) = facet.read (t'.flag holder flag)
    rw [hs.there holder hholder, ht.there holder ((hsame holder).1 hholder)]
    exact hrules holder facet hholder htouched
  · have hne : ∀ holder facet, holders holder → field ≠ .flag holder flag facet :=
      fun holder facet hholder heq => hfield ⟨holder, facet, hholder, heq⟩
    rw [hs.elsewhere field hne,
      ht.elsewhere field fun holder facet h => hne holder facet ((hsame holder).2 h)]
    exact hst field htouched

/-- A write of a flag changes the facets that it carries. -/
theorem Assigned.read_of_apply {holder : Holder} {flag : String} {write : FlagWrite}
    {rule : Option FlagRule} (h : Assigned (· = holder) flag rule s s')
    (happly : write.apply (s.flag holder flag) = .ok rule) {field : Field}
    (hfield : ∀ facet, write.Carries facet → field ≠ .flag holder flag facet) :
    s'.read field = s.read field := by
  by_cases hflag : ∃ facet, field = .flag holder flag facet
  · obtain ⟨facet, rfl⟩ := hflag
    show facet.read (s'.flag holder flag) = facet.read (s.flag holder flag)
    rw [h.there holder rfl]
    exact FlagWrite.read_of_apply happly fun hcarries => hfield facet hcarries rfl
  · apply h.elsewhere
    rintro _ facet rfl heq
    exact hflag ⟨facet, heq⟩

/-- A write of a flag that is tried on two stores fails in the same way, or goes through in both. -/
theorem Wrote.alike {β : Type} {holder : Holder} {flag : String} {write : FlagWrite}
    {result result' : Except StoreError (β × Store)} (hs : Wrote s holder flag write result)
    (ht : Wrote t holder flag write result') (hst : s.AgreeOn touched t)
    (hdocument : touched holder.document) (hpresence : touched (.flag holder flag .presence)) :
    Alike touched result result' := by
  have hhas : s.Has holder ↔ t.Has holder := has_congr _ (hst _ hdocument)
  have hsame : (s.flag holder flag).isSome = (t.flag holder flag).isSome := hst _ hpresence
  cases hs with
  | absent hs =>
    cases ht with
    | absent => exact .failed _
    | refused ht | written ht => exact absurd (hhas.2 ht) hs
  | refused hs happly =>
    obtain ⟨e, he, he'⟩ | ⟨_, _, hok, -⟩ := write.apply_congr hsame
    · cases ht with
      | absent ht => exact absurd (hhas.1 hs) ht
      | refused ht happly' =>
        obtain rfl := Except.error.inj (happly.symm.trans he)
        obtain rfl := Except.error.inj (happly'.symm.trans he')
        exact .failed _
      | written ht happly' => cases happly'.symm.trans he'
    · cases happly.symm.trans hok
  | written hs happly hset =>
    obtain ⟨e, he, -⟩ | ⟨rule, rule', hok, hok', hcarried⟩ := write.apply_congr hsame
    · cases happly.symm.trans he
    · obtain rfl := Except.ok.inj (happly.symm.trans hok)
      cases ht with
      | absent ht => exact absurd (hhas.1 hs) ht
      | refused ht happly' => cases happly'.symm.trans hok'
      | written ht happly' hset' =>
        obtain rfl := Except.ok.inj (happly'.symm.trans hok')
        refine .succeeded (hset.agreeOn hset' hst (fun _ => Iff.rfl) ?_)
        rintro _ facet rfl htouched
        by_cases hcarries : write.Carries facet
        · exact hcarried facet hcarries
        · -- a facet that is not carried agreed before
          rw [FlagWrite.read_of_apply happly hcarries, FlagWrite.read_of_apply happly' hcarries]
          exact hst _ htouched

/-- A write of a flag touches the holder and whether it has the flag, and writes the facets that it
carries. -/
theorem Request.confined_of_flagWrite? {request : Request} {holder : Holder} {flag : String}
    {write : FlagWrite} (h : request.flagWrite? = some (holder, flag, write))
    (hdocument : touched holder.document) (hpresence : touched (.flag holder flag .presence))
    (hwritten : ∀ facet, write.Carries facet → written (.flag holder flag facet)) :
    request.Confined touched written where
  alike _ _ hst := Wrote.alike (perform_flagWrite h) (perform_flagWrite h) hst hdocument hpresence
  kept := by
    intro s s' now reply hok field hfield
    have hs : Wrote s holder flag write (s.perform now request) := perform_flagWrite h
    rw [hok] at hs
    cases hs with
    | written _ happly hset =>
      apply hset.read_of_apply happly
      rintro facet hcarries rfl
      exact hfield (hwritten facet hcarries)

/-- A bulk write touches the switch and the listed documents, and writes the flag there. -/
theorem Request.confined_cascadeRequest {ids : List String} {flag : String}
    {rule : Option FlagRule} (hswitches : touched .switches)
    (hdocuments : ∀ id ∈ ids, touched (.environment id))
    (hwritten : ∀ id ∈ ids, ∀ facet, written (.flag (.environment id) flag facet)) :
    (Propagation.cascadeRequest ids flag rule).Confined touched written where
  alike := by
    intro s t now now' hst
    have hswitch : s.environmentWritesFail = t.environmentWritesFail :=
      congrArg Prod.fst (hst _ hswitches)
    cases hs : s.environmentWritesFail with
    | true =>
      rw [Propagation.perform_cascadeRequest_of_fails hs,
        Propagation.perform_cascadeRequest_of_fails (hswitch.symm.trans hs)]
      exact .failed _
    | false =>
      obtain ⟨reply, s', hok⟩ := Propagation.exists_perform_cascadeRequest hs ids flag rule now
      obtain ⟨reply', t', hok'⟩ :=
        Propagation.exists_perform_cascadeRequest (hswitch.symm.trans hs) ids flag rule now'
      rw [hok, hok']
      have hs' := (updateEnvironmentFlags_eq_ok (Propagation.perform_cascadeRequest hok)).2
      have ht' := (updateEnvironmentFlags_eq_ok (Propagation.perform_cascadeRequest hok')).2
      refine .succeeded (hs'.assigned.agreeOn ht'.assigned hst ?_ fun _ _ _ _ => rfl)
      -- the environments that the two writes reach are the same
      intro holder
      refine exists_congr fun id => and_congr_right fun hid => and_congr_left' ?_
      exact has_congr _ (hst _ (hdocuments id hid))
  kept := by
    intro s s' now reply hok field hfield
    have hs' := (updateEnvironmentFlags_eq_ok (Propagation.perform_cascadeRequest hok)).2
    apply hs'.assigned.elsewhere
    rintro _ facet ⟨id, hid, -, rfl⟩ rfl
    exact hfield (hwritten id hid facet)

/-- The document of one environment is changed in one part, where there is the environment. -/
theorem Request.confined_of_update {request : Request} (id : String) (part : Environment.Part)
    (change : Timestamp → Environment → Environment)
    (habsent : ∀ {s : Store} (now : Nat → Timestamp), s.environments.get? id = none →
      s.perform now request = .error (.notFound .environment))
    (hpresent : ∀ {s : Store} (now : Nat → Timestamp) {e : Environment},
      s.environments.get? id = some e →
      ∃ reply, s.perform now request
        = .ok (reply, { s with environments := s.environments.insert id (change (now 0) e) }))
    (hagrees : ∀ now (e : Environment), e.AgreesBut part (change now e))
    (hvalue : ∀ {s t : Store} {field : Field}, field.Within id part → ∀ now now' e e',
      ({ s with environments := s.environments.insert id (change now e) } : Store).read field
        = ({ t with environments := t.environments.insert id (change now' e') } : Store).read field)
    (hdocument : touched (.environment id))
    (hwritten : ∀ field : Field, field.Within id part → written field) :
    request.Confined touched written where
  alike := by
    intro s t now now' hst
    have hhas : s.Has (.environment id) ↔ t.Has (.environment id) := has_congr _ (hst _ hdocument)
    cases hs : s.environments.get? id with
    | none =>
      have ht : t.environments.get? id = none := by simpa [Has, hs] using hhas
      rw [habsent now hs, habsent now' ht]
      exact .failed _
    | some e =>
      obtain ⟨e', ht⟩ : ∃ e', t.environments.get? id = some e' := by
        simpa [Has, hs, Option.isSome_iff_exists] using hhas
      obtain ⟨reply, hok⟩ := hpresent now hs
      obtain ⟨reply', hok'⟩ := hpresent now' ht
      rw [hok, hok']
      -- a field of the part has its new value, which is the same in both, and the others their old
      refine .succeeded fun field htouched => ?_
      by_cases hfield : field.Within id part
      · exact hvalue hfield _ _ _ _
      · rw [read_replaced hs (hagrees _ _) hfield, read_replaced ht (hagrees _ _) hfield]
        exact hst field htouched
  kept := by
    intro s s' now reply hok field hfield
    cases hs : s.environments.get? id with
    | none => cases (habsent now hs).symm.trans hok
    | some e =>
      obtain ⟨_, hok'⟩ := hpresent now hs
      obtain ⟨-, rfl⟩ := Prod.mk.inj (Except.ok.inj (hok'.symm.trans hok))
      exact read_replaced hs (hagrees _ _) (mt (hwritten field) hfield)

theorem updateEnvironment_of_absent {β : Type} {id : String}
    {change : Environment → Except StoreError (β × Environment)}
    (h : s.environments.get? id = none) :
    s.updateEnvironment id change = .error (.notFound .environment) := by
  rw [updateEnvironment, h]

/-- Renaming touches the document, and writes the name. -/
theorem Request.confined_renameEnvironment {id name : String}
    (hdocument : touched (.environment id)) (hwritten : written (.name id)) :
    (Request.renameEnvironment id name).Confined touched written := by
  apply confined_of_update id .name fun now e => { e with name, updatedAt := now }
  case habsent =>
    intro s now hs
    have hrename : s.renameEnvironment id name (now 0) = .error (.notFound .environment) :=
      updateEnvironment_of_absent hs
    exact hrename
  case hpresent => exact fun now _ hs => ⟨_, renameEnvironment_eq_ok.2 ⟨_, hs, rfl, rfl⟩⟩
  case hagrees => exact fun now e => e.agreesBut_rename name now
  case hvalue =>
    rintro s t _ rfl now now' e e'
    show Option.map _ _ = Option.map _ _
    rw [SortedMap.get?_insert, if_pos rfl, SortedMap.get?_insert, if_pos rfl]
    rfl
  case hdocument => exact hdocument
  case hwritten =>
    rintro _ rfl
    exact hwritten

/-- A write of a key touches the document, and writes the key. -/
theorem Request.confined_of_rekey {request : Request} {id key : String} {scope : KeyScope}
    (write : KeyMap → KeyMap) (value : Option KeyDescriptor)
    (habsent : ∀ {s : Store} (now : Nat → Timestamp), s.environments.get? id = none →
      s.perform now request = .error (.notFound .environment))
    (hpresent : ∀ {s : Store} (now : Nat → Timestamp) {e : Environment},
      s.environments.get? id = some e →
      ∃ reply, s.perform now request = .ok (reply, { s with
        environments := s.environments.insert id
          (e.rekey scope (write (e.keys scope)) (now 0)) }))
    (hwrite : ∀ keys other,
      (write keys).get? other = if other = key then value else keys.get? other)
    (hdocument : touched (.environment id)) (hwritten : written (.key id scope key)) :
    request.Confined touched written := by
  apply confined_of_update id (.key scope key)
    fun now e => e.rekey scope (write (e.keys scope)) now
  case habsent => exact habsent
  case hpresent => exact hpresent
  case hagrees =>
    exact fun now e => e.agreesBut_rekey scope now fun other hne => by rw [hwrite, if_neg hne]
  case hvalue =>
    rintro s t _ rfl now now' e e'
    show Option.bind _ _ = Option.bind _ _
    rw [SortedMap.get?_insert, if_pos rfl, SortedMap.get?_insert, if_pos rfl, Option.bind_some,
      Option.bind_some, Environment.keys_rekey, if_pos rfl, Environment.keys_rekey, if_pos rfl,
      hwrite, if_pos rfl, hwrite, if_pos rfl]
  case hdocument => exact hdocument
  case hwritten =>
    rintro _ rfl
    exact hwritten

theorem Request.confined_insertApiKey {id key : String} {scope : KeyScope}
    {descriptor : KeyDescriptor} (hdocument : touched (.environment id))
    (hwritten : written (.key id scope key)) :
    (Request.insertApiKey id scope key descriptor).Confined touched written := by
  apply confined_of_rekey (·.insert key descriptor) (some descriptor)
  case habsent =>
    intro s now hs
    show silent (Except.map _ (s.updateEnvironment id _)) = _
    rw [updateEnvironment_of_absent hs]
    rfl
  case hpresent =>
    exact fun now _ hs => ⟨(), silent_eq_ok.2 (insertApiKey_eq_ok.2 ⟨_, hs, rfl⟩)⟩
  case hwrite => exact fun keys other => SortedMap.get?_insert keys key other descriptor
  case hdocument => exact hdocument
  case hwritten => exact hwritten

theorem Request.confined_deleteApiKey {id key : String} {scope : KeyScope}
    (hdocument : touched (.environment id)) (hwritten : written (.key id scope key)) :
    (Request.deleteApiKey id scope key).Confined touched written := by
  apply confined_of_rekey (·.erase key) none
  case habsent =>
    intro s now hs
    show silent (Except.map _ (s.updateEnvironment id _)) = _
    rw [updateEnvironment_of_absent hs]
    rfl
  case hpresent =>
    exact fun now _ hs => ⟨(), silent_eq_ok.2 (deleteApiKey_eq_ok.2 ⟨_, hs, rfl⟩)⟩
  case hwrite => exact fun keys other => SortedMap.get?_erase keys key other
  case hdocument => exact hdocument
  case hwritten => exact hwritten

/-- Getting a project touches the document, and writes nothing. -/
theorem Request.confined_getProject {name : String} (hdocument : touched (.project name)) :
    (Request.getProject name).Confined touched written where
  alike := by
    intro s t now now' hst
    have hhas : s.Has (.project name) ↔ t.Has (.project name) := has_congr _ (hst _ hdocument)
    show Alike touched (s.unchanged (s.getProject name)) (t.unchanged (t.getProject name))
    rw [Store.getProject, Store.getProject]
    cases hs : s.projects.get? name with
    | none =>
      have ht : t.projects.get? name = none := by simpa [Has, hs] using hhas
      rw [ht]
      exact .failed _
    | some p =>
      obtain ⟨q, ht⟩ : ∃ q, t.projects.get? name = some q := by
        simpa [Has, hs, Option.isSome_iff_exists] using hhas
      rw [ht]
      exact .succeeded hst
  kept := by
    intro s s' now reply hok field _
    obtain ⟨-, rfl⟩ := unchanged_eq_ok.1 hok
    rfl

end Store

/-! ### Programs -/

namespace ServiceState

variable {p q : ServiceState}

/-- Two services whose stores agree, and in which the same operations are made to fail. -/
structure AgreeOn (fields : Field → Prop) (p q : ServiceState) : Prop where
  store : p.store.AgreeOn fields q.store
  faults : p.faults = q.faults

/-- A confined request to services that agree fails in the same way, or goes through in both. -/
theorem AgreeOn.call_cases (supply other : Supply) (hpq : p.AgreeOn touched q)
    {request : Store.Request} (h : request.Confined touched written) :
    (∃ e, p.call supply request = (.error e, p.after p.store) ∧
      q.call other request = (.error e, q.after q.store)) ∨
    ∃ reply reply' s' t', p.store.perform (supply.reading p.steps) request = .ok (reply, s') ∧
      q.store.perform (other.reading q.steps) request = .ok (reply', t') ∧
      s'.AgreeOn touched t' ∧ p.call supply request = (.ok reply, p.after s') ∧
      q.call other request = (.ok reply', q.after t') := by
  have hlookup : p.faults.lookup request.method = q.faults.lookup request.method := by
    rw [hpq.faults]
  rw [call, call, hlookup]
  cases q.faults.lookup request.method with
  | some e => exact .inl ⟨e, rfl, rfl⟩
  | none =>
    have halike := h.alike (supply.reading p.steps) (other.reading q.steps) hpq.store
    generalize p.store.perform (supply.reading p.steps) request = result at halike
    generalize q.store.perform (other.reading q.steps) request = result' at halike
    cases halike with
    | failed e => exact .inl ⟨e, rfl, rfl⟩
    | succeeded hagree => exact .inr ⟨_, _, _, _, rfl, rfl, hagree, rfl, rfl⟩

end ServiceState

namespace Program

/-- The requests of the program are confined, and all that it makes of a reply is made of the
touched fields. -/
def Confined (touched written : Field → Prop) : Program α → Prop
  | done _ => True
  | call request resume =>
    request.Confined touched written ∧
    (∀ (s t s' t' : Store) (now now' : Nat → Timestamp) (reply reply' : request.Reply),
      s.AgreeOn touched t → s.perform now request = .ok (reply, s') →
      t.perform now' request = .ok (reply', t') → resume (.ok reply) = resume (.ok reply')) ∧
    ∀ reply, (resume reply).Confined touched written
  | readClock _ | newId _ | newKey _ => False
  | count _ _ next => next.Confined touched written

variable (supply other : Supply) {program : Program α} {p q : ServiceState}

/-- A step looks at the touched fields alone. -/
theorem Confined.step (h : program.Confined touched written) (hpq : p.AgreeOn touched q) :
    (program.step supply p).1 = (program.step other q).1 ∧
      (program.step supply p).2.AgreeOn touched (program.step other q).2 := by
  cases program with
  | done value => exact ⟨rfl, hpq⟩
  | readClock | newId | newKey => exact h.elim
  | count series amount next => exact ⟨rfl, hpq.store, hpq.faults⟩
  | call request resume =>
    obtain ⟨hrequest, hresume, -⟩ := h
    rw [Program.step, Program.step]
    obtain ⟨e, hp, hq⟩ | ⟨reply, reply', s', t', hs, ht, hagree, hp, hq⟩ :=
      hpq.call_cases supply other hrequest
    · rw [hp, hq]
      exact ⟨rfl, hpq.store, hpq.faults⟩
    · rw [hp, hq]
      exact ⟨hresume _ _ _ _ _ _ _ _ hpq.store hs ht, hagree, hpq.faults⟩

/-- A step changes the written fields alone. -/
theorem Confined.step_kept (h : program.Confined touched written) (p : ServiceState)
    {field : Field} (hfield : ¬ written field) :
    (program.step supply p).2.store.read field = p.store.read field := by
  cases program with
  | done | count => rfl
  | readClock | newId | newKey => exact h.elim
  | call request resume =>
    rw [Program.step]
    obtain ⟨reply, s', hs, hcall⟩ | ⟨e, -, hcall⟩ := p.call_cases supply request
    · rw [hcall]
      exact h.1.kept hs field hfield
    · rw [hcall]
      rfl

/-- What is left after a step is confined as well. -/
theorem Confined.step_confined (h : program.Confined touched written) :
    (program.step supply p).1.Confined touched written := by
  cases program with
  | done | count => exact h
  | readClock | newId | newKey => exact h.elim
  | call request resume => exact h.2.2 _

theorem step_faults (program : Program α) (p : ServiceState) :
    (program.step supply p).2.faults = p.faults := by
  rw [← run_faults supply (program.step supply p).1, run_step, run_faults]

/-- A run looks at the touched fields alone. -/
theorem Confined.run (h : program.Confined touched written) (hpq : p.AgreeOn touched q) :
    (program.run supply p).1 = (program.run other q).1 ∧
      (program.run supply p).2.AgreeOn touched (program.run other q).2 := by
  induction program generalizing p q with
  | done value => exact ⟨rfl, hpq⟩
  | readClock | newId | newKey => exact h.elim
  | count series amount next ih => exact ih h ⟨hpq.store, hpq.faults⟩
  | call request resume ih =>
    obtain ⟨hnext, hagree⟩ := Confined.step supply other h hpq
    -- both runs go on with one program, though the replies may differ
    have hnext : resume (p.call supply request).1 = resume (q.call other request).1 := hnext
    rw [Program.run, Program.run, ← hnext]
    exact ih _ (h.2.2 _) hagree

/-- A run changes the written fields alone. -/
theorem Confined.run_kept (h : program.Confined touched written) (p : ServiceState)
    {field : Field} (hfield : ¬ written field) :
    (program.run supply p).2.store.read field = p.store.read field := by
  induction program generalizing p with
  | done value => rfl
  | readClock | newId | newKey => exact h.elim
  | count series amount next ih => exact ih h _
  | call request resume ih =>
    have hstep := Confined.step_kept supply h p hfield
    rw [Program.run, ih _ (h.2.2 _) _]
    exact hstep

theorem step_map {β : Type} (supply : Supply) (f : α → β) (program : Program α)
    (p : ServiceState) :
    (program.map f).step supply p
      = ((program.step supply p).1.map f, (program.step supply p).2) := by
  cases program <;> rfl

end Program

/-! ### Actions -/

namespace Action

/-- How an action ended: well, or with an error. -/
def verdict (outcome : Except ApiError α) : Except ApiError Unit := outcome.map fun _ => ()

/-- The action, with nothing left of its result but how it ended. -/
def bare (action : Action α) : Action Unit := action.map verdict

theorem confined_store {request : Store.Request} {resume : request.Reply → Action α}
    (hrequest : request.Confined touched written)
    (hreplies : ∀ (s t s' t' : Store) (now now' : Nat → Timestamp) (reply reply' : request.Reply),
      s.AgreeOn touched t → s.perform now request = .ok (reply, s') →
      t.perform now' request = .ok (reply', t') → (resume reply).bare = (resume reply').bare)
    (hresume : ∀ reply, (resume reply).bare.Confined touched written) :
    (Action.store request resume).bare.Confined touched written := by
  refine ⟨hrequest, hreplies, fun reply => ?_⟩
  cases reply with
  | ok reply => exact hresume reply
  | error e => exact trivial

/-- An action of one request, whose reply is shown. -/
theorem confined_last {request : Store.Request} {result : request.Reply → α}
    (hrequest : request.Confined touched written) :
    (Action.store request fun reply => Action.ok (result reply)).bare.Confined touched written :=
  confined_store hrequest (fun _ _ _ _ _ _ _ _ _ _ _ => rfl) fun _ => trivial

/-- A bulk write counts the listed environments that there are. -/
theorem confined_cascade {ids : List String} {flag : String} {rule : Option FlagRule}
    {resume : Nat → Action α} (hswitches : touched .switches)
    (hdocuments : ∀ id, touched (.environment id))
    (hwritten : ∀ id facet, written (.flag (.environment id) flag facet))
    (hresume : ∀ count, (resume count).bare.Confined touched written) :
    (Propagation.cascade ids flag rule resume).bare.Confined touched written := by
  rw [Propagation.cascade]
  split
  case isTrue => exact hresume 0
  case isFalse =>
    refine ⟨Store.Request.confined_cascadeRequest hswitches (fun id _ => hdocuments id)
      fun id _ => hwritten id, ?_, fun reply => ?_⟩
    · intro s t s' t' now now' reply reply' hst hs ht
      have hcount : Propagation.writtenBy ids flag rule reply
          = Propagation.writtenBy ids flag rule reply' := by
        rw [(Store.updateEnvironmentFlags_eq_ok (Propagation.perform_cascadeRequest hs)).2.count,
          (Store.updateEnvironmentFlags_eq_ok (Propagation.perform_cascadeRequest ht)).2.count]
        congr 2
        funext id
        rw [Bool.eq_iff_iff]
        exact Store.has_congr (.environment id) (hst _ (hdocuments id))
      show Program.bind (.count _ _ (resume _)) _ = Program.bind (.count _ _ (resume _)) _
      rw [hcount]
    · cases reply with
      | ok reply => exact hresume _
      | error e => exact trivial

end Action

end FeatureFlags
