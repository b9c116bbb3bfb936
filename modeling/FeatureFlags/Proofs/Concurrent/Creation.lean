import FeatureFlags.Proofs.Concurrent.Pool

/-!
A creation beside the write of a flag.

A creation copies the flags of its project, and is listed by it two steps later.  A call that adds
or removes a flag writes to the project and then to the environments that the project listed at that
moment.  If this write comes after the copy and before the listing, the new environment gets the
flag neither way (`overtaken`); if it does not, the environment ends up with the flag as the project
has it (`Pool.created_agrees_or_overtaken`).

The phases of the two calls say how far they are, `Copied` how the copy of the flag relates to what
the project says, and `Beside` is the invariant of the two calls together.
-/

namespace FeatureFlags

open Store

/-- The operation that writes a flag to a project. -/
def Propagation.projectMethod : Option FlagRule → Method
  | some _ => .insertProjectFlag
  | none => .removeProjectFlag

/-- How far a creation, or the write of a flag beside it, has come. -/
inductive Stage where
  /-- There is no such call. -/
  | absent
  /-- A creation that has not read the project. -/
  | creating
  /-- It has read these flags. -/
  | read (flags : FlagMap)
  /-- It has an id for its environment. -/
  | named (flags : FlagMap) (id : String)
  /-- It has inserted the environment. -/
  | placed (id : String)
  /-- The project lists the environment. -/
  | listed (id : String)
  /-- A write that has not come to the project. -/
  | writing
  /-- It has written to the project, which listed these ids. -/
  | wrote (ids : List String)
  /-- It has written to the environments. -/
  | spread
  /-- A request of the call has failed. -/
  | failed

namespace Stage

variable (project flag : String) (rule : Option FlagRule)

/-- What a call may ask for. -/
def permits : Stage → Request → Prop
  | creating, request => request = .getProject project
  | named flags id, request => ∃ e, request = .insertEnvironment e ∧ e.id = id ∧ e.flags = flags
  | placed id, request => request = .attachEnvironment project id
  | writing, request => request = Propagation.projectRequest project flag rule
  | wrote ids, request => request = Propagation.cascadeRequest ids flag rule
  | failed, _ => True
  | _, _ => False

def after : Stage → (request : Request) → Except StoreError request.Reply → Stage
  | _, _, .error _ => failed
  | creating, .getProject _, .ok (found : Project) => read found.flags
  | named _ id, .insertEnvironment _, .ok _ => placed id
  | placed id, .attachEnvironment .., .ok _ => listed id
  | writing, .insertProjectFlag .., .ok (ids : List String) => wrote ids
  | writing, .removeProjectFlag .., .ok (ids : List String) => wrote ids
  | wrote _, _, .ok _ => spread
  | stage, _, _ => stage

/-- A creation succeeds if its environment is listed, and a write if it has come to every
environment. -/
def ends : Stage → (command : Command) → Except ApiError command.Result → Prop
  | stage, .createEnvironment .., .ok (e : Environment) => stage = listed e.id
  | stage, _, .ok _ => stage = spread ∨ stage = wrote []
  | _, _, .error _ => True

def discipline : Discipline Stage where
  start := absent
  permits := permits project flag rule
  after := after
  names stage := ∃ flags, stage = read flags
  named
    | read flags, id => named flags id
    | stage, _ => stage

variable {project flag : String} {rule : Option FlagRule}

theorem obeys_createEnvironment (name : String) :
    (Command.createEnvironment project name).program.Obeys (discipline project flag rule)
      (fun stage => ends stage (.createEnvironment project name)) creating := by
  refine Action.obeys_store rfl (fun found => ?_) (fun _ => trivial)
  intro now
  refine ⟨⟨_, rfl⟩, fun id => ?_⟩
  refine Action.obeys_store ⟨_, rfl, rfl, rfl⟩ (fun _ => ?_) (fun _ => trivial)
  refine ⟨rfl, fun reply => ?_⟩
  cases reply with
  | ok _ => exact rfl
  | error e => exact ⟨trivial, fun reply => trivial⟩

theorem obeys_writeFlag :
    (Command.writeFlag project flag rule).program.Obeys (discipline project flag rule)
      (fun stage => ends stage (.writeFlag project flag rule)) writing := by
  cases rule with
  | some rule =>
    refine Action.obeys_store rfl (fun ids => ?_) (fun _ => trivial)
    exact Propagation.obeys_cascade (fun hnil => .inr (congrArg wrote hnil)) rfl
      (fun _ _ => .inl rfl) (fun _ => trivial)
  | none =>
    refine Action.obeys_store rfl (fun ids => ?_) (fun _ => trivial)
    exact Propagation.obeys_cascade (fun hnil => .inr (congrArg wrote hnil)) rfl
      (fun _ _ => .inl rfl) (fun _ => trivial)

end Stage

/-! ### The invariant -/

section Invariant

variable (project flag : String) (rule before : Option FlagRule)

/-- What a copy of the flag may say: what the write says, or what the project said before, and then
the write has not come yet or came after the reading. -/
def Copied (methods : List Method) (other : Stage) (copy : Option FlagRule) : Prop :=
  copy = rule ∨ copy = before ∧
    (other = .writing ∨ [.getProject, Propagation.projectMethod rule].Sublist methods)

/-- What holds of a creation, given how far the write beside it has come. -/
def CreationHolds (s : Store) (methods : List Method) (other : Stage) : Stage → Prop
  | .creating => True
  | .read flags | .named flags _ =>
    [.getProject].Sublist methods ∧ Copied rule before methods other (flags.get? flag)
  | .placed id =>
    [.getProject].Sublist methods ∧ s.environments.contains id = true ∧
      Copied rule before methods other (s.environmentFlag id flag)
  | .listed id =>
    s.Lists project id ∧ s.environments.contains id = true ∧
      (s.environmentFlag id flag = rule ∨
        s.environmentFlag id flag = before ∧ (other = .writing ∨
          [.getProject, Propagation.projectMethod rule, .attachEnvironment].Sublist methods) ∨
        ∃ ids, other = .wrote ids ∧ id ∈ ids)
  | _ => False

/-- What holds of the write. -/
def WriteHolds (s : Store) : Stage → Prop
  | .writing => s.projectFlag project flag = before
  | .wrote _ | .spread => s.projectFlag project flag = rule
  | _ => False

end Invariant

section Steps

variable {project flag : String} {rule before : Option FlagRule} {s s' : Store}
  {methods : List Method} {a b : Stage} {now : Nat → Timestamp} {request : Request}
  {reply : request.Reply}

theorem Copied.log {copy : Option FlagRule} (h : Copied rule before methods b copy)
    (method : Method) : Copied rule before (methods ++ [method]) b copy := by
  obtain hcopy | ⟨hcopy, hwriting | hsub⟩ := h
  · exact .inl hcopy
  · exact .inr ⟨hcopy, .inl hwriting⟩
  · exact .inr ⟨hcopy, .inr (hsub.trans (List.sublist_append_left ..))⟩

/-- A step of the creation. -/
theorem CreationHolds.creation_step (h : CreationHolds project flag rule before s methods b a)
    (hwrite : WriteHolds project flag rule before s b)
    (hpermits : Stage.permits project flag rule a request)
    (hs : s.perform now request = .ok (reply, s')) :
    CreationHolds project flag rule before s' (methods ++ [request.method]) b
        (Stage.after a request (.ok reply)) ∧
      WriteHolds project flag rule before s' b := by
  cases a with
  | creating =>
    obtain rfl : request = .getProject project := hpermits
    obtain ⟨hfound, rfl⟩ := unchanged_eq_ok.1 hs
    refine ⟨⟨List.sublist_append_right .., ?_⟩, hwrite⟩
    rw [← projectFlag_eq (getProject_eq_ok.1 hfound)]
    -- the copy has the flag as it was written if the write has come to the project already
    cases b with
    | writing => exact .inr ⟨hwrite, .inl rfl⟩
    | wrote | spread => exact .inl hwrite
    | _ => exact hwrite.elim
  | named flags id =>
    obtain ⟨e, rfl, rfl, rfl⟩ := hpermits
    obtain ⟨habsent, rfl⟩ := insertEnvironment_eq_ok.1 (silent_eq_ok.1 hs)
    obtain ⟨hread, hcopied⟩ := h
    refine ⟨⟨hread.trans (List.sublist_append_left ..), ?_, ?_⟩, ?_⟩
    · rw [contains_eq_isSome, environmentFlags_insert, if_pos rfl]
      rfl
    · rw [environmentFlag, environmentFlags_insert, if_pos rfl]
      exact hcopied.log _
    · cases b <;> exact hwrite
  | placed id =>
    obtain rfl : request = .attachEnvironment project id := hpermits
    have hflag : s'.environmentFlag id flag = s.environmentFlag id flag := by
      rw [environmentFlag, environmentFlags_perform hs rfl, environmentFlag]
    have hproject : s'.projectFlag project flag = s.projectFlag project flag := by
      rw [projectFlag, projectFlags_perform hs rfl, projectFlag]
    obtain ⟨hread, hexists, hcopied⟩ := h
    obtain ⟨-, found, hp, hstore⟩ := attachEnvironment_eq_ok.1 (silent_eq_ok.1 hs)
    refine ⟨⟨?_, ?_, ?_⟩, ?_⟩
    · exact (lists_enlist hp (congrArg Store.projects hstore) project id).2 (.inr ⟨rfl, rfl⟩)
    · rw [contains_perform hs rfl, hexists]
    · rw [hflag]
      obtain hcopy | ⟨hcopy, hbefore | hover⟩ := hcopied
      · exact .inl hcopy
      · exact .inr (.inl ⟨hcopy, .inl hbefore⟩)
      · exact .inr (.inl ⟨hcopy, .inr (hover.append (List.Sublist.refl [_]))⟩)
    · cases b with
      | writing | wrote | spread => exact hproject.trans hwrite
      | _ => exact hwrite.elim
  | read | listed => exact hpermits.elim
  | absent | writing | wrote | spread | failed => exact h.elim

/-- The write comes to the project after the creation has read it. -/
theorem Copied.overtaken {copy : Option FlagRule} (h : Copied rule before methods .writing copy)
    (hread : [.getProject].Sublist methods) (ids : List String) :
    Copied rule before (methods ++ [Propagation.projectMethod rule]) (.wrote ids) copy :=
  h.imp_right fun ⟨hcopy, _⟩ => ⟨hcopy, .inr (hread.append (List.Sublist.refl [_]))⟩

/-- A step of the write to the project. -/
theorem CreationHolds.project_step (h : CreationHolds project flag rule before s methods .writing a)
    {reply : (Propagation.projectRequest project flag rule).Reply}
    (hs : s.perform now (Propagation.projectRequest project flag rule) = .ok (reply, s')) :
    CreationHolds project flag rule before s' (methods ++ [Propagation.projectMethod rule])
        (.wrote (Propagation.listedIn reply)) a ∧ s'.projectFlag project flag = rule := by
  obtain ⟨found, ⟨hp, -⟩, hids, rfl⟩ := Propagation.perform_projectRequest.1 hs
  refine ⟨?_, projectFlag_assign ..⟩
  cases a with
  | creating => exact trivial
  | read flags | named flags id =>
    obtain ⟨hread, hcopied⟩ := h
    exact ⟨hread.trans (List.sublist_append_left ..), hcopied.overtaken hread _⟩
  | placed id =>
    obtain ⟨hread, hexists, hcopied⟩ := h
    exact ⟨hread.trans (List.sublist_append_left ..), hexists, hcopied.overtaken hread _⟩
  | listed id =>
    obtain ⟨hlists, hexists, -⟩ := h
    -- the environment is listed by now, so the bulk write will come to it
    have hid : id ∈ Propagation.listedIn reply := by
      rw [hids, ← lists_iff hp]
      exact hlists
    refine ⟨?_, hexists, .inr (.inr ⟨_, rfl, hid⟩)⟩
    rw [lists_iff (by rw [SortedMap.get?_insert, if_pos rfl])]
    exact (lists_iff hp).1 hlists
  | absent | writing | wrote | spread | failed => exact h.elim

/-- A step of the write to the environments. -/
theorem CreationHolds.cascade_step {ids : List String}
    (h : CreationHolds project flag rule before s methods (.wrote ids) a) {n : Nat}
    (hs : s.updateEnvironmentFlags ids (·.assign flag rule) now = .ok (n, s')) (method : Method) :
    CreationHolds project flag rule before s' (methods ++ [method]) .spread a := by
  have hlater : ∀ {copy}, Copied rule before methods (.wrote ids) copy →
      Copied rule before (methods ++ [method]) .spread copy := by
    intro copy hcopied
    refine hcopied.imp_right fun ⟨hcopy, hother⟩ => ⟨hcopy, .inr ?_⟩
    exact (hother.resolve_left nofun).trans (List.sublist_append_left ..)
  cases a with
  | creating => exact trivial
  | read flags | named flags id =>
    obtain ⟨hread, hcopied⟩ := h
    exact ⟨hread.trans (List.sublist_append_left ..), hlater hcopied⟩
  | placed id =>
    obtain ⟨hread, hexists, hcopied⟩ := h
    refine ⟨hread.trans (List.sublist_append_left ..), ?_, ?_⟩
    · rw [contains_updateEnvironmentFlags hs, hexists]
    · rw [environmentFlag_updateEnvironmentFlags hs hexists]
      split
      · exact .inl rfl
      · exact hlater hcopied
  | listed id =>
    obtain ⟨hlists, hexists, hflag⟩ := h
    have hs' := (updateEnvironmentFlags_eq_ok hs).2.frame
    refine ⟨?_, ?_, ?_⟩
    · rw [hs']
      exact hlists
    · rw [contains_updateEnvironmentFlags hs, hexists]
    · rw [environmentFlag_updateEnvironmentFlags hs hexists]
      split
      case isTrue => exact .inl rfl
      case isFalse hid =>
        obtain hcopy | ⟨hcopy, hwriting | hover⟩ | ⟨_, heq, hmem⟩ := hflag
        · exact .inl hcopy
        · cases hwriting
        · exact .inr (.inl ⟨hcopy, .inr (hover.trans (List.sublist_append_left ..))⟩)
        · obtain rfl := Stage.wrote.inj heq
          exact absurd hmem hid
  | absent | writing | wrote | spread | failed => exact h.elim

/-- A step of the call that writes. -/
theorem CreationHolds.write_step (h : CreationHolds project flag rule before s methods b a)
    (hwrite : WriteHolds project flag rule before s b)
    (hpermits : Stage.permits project flag rule b request)
    (hs : s.perform now request = .ok (reply, s')) :
    CreationHolds project flag rule before s' (methods ++ [request.method])
        (Stage.after b request (.ok reply)) a ∧
      WriteHolds project flag rule before s' (Stage.after b request (.ok reply)) := by
  cases b with
  | writing =>
    obtain rfl : request = Propagation.projectRequest project flag rule := hpermits
    have hstep := h.project_step hs
    cases rule <;> exact hstep
  | wrote ids =>
    obtain rfl : request = Propagation.cascadeRequest ids flag rule := hpermits
    have hn := Propagation.perform_cascadeRequest hs
    have hs' := (updateEnvironmentFlags_eq_ok hn).2.frame
    have hproject : s'.projectFlag project flag = rule := by
      rw [hs']
      exact hwrite
    have hstep := h.cascade_step hn (Propagation.cascadeRequest ids flag rule).method
    cases rule <;> exact ⟨hstep, hproject⟩
  | absent | creating | read | named | placed | listed | failed => exact hwrite.elim
  | spread => exact hpermits.elim

end Steps

/-! ### Runs of the two calls -/

/-- The invariant of a creation (call 0) beside a write (call 1). -/
def Beside (project flag : String) (rule before : Option FlagRule) (p : ServiceState)
    (trace : List Exchange) (stages : Nat → Stage) : Prop :=
  (∀ i, 2 ≤ i → stages i = .absent) ∧ (stages 0 = .failed ∨ stages 1 = .failed ∨
    CreationHolds project flag rule before p.store (trace.map (·.request.method)) (stages 1)
        (stages 0) ∧
      WriteHolds project flag rule before p.store (stages 1))

variable {supply : Supply} {project flag : String} {rule before : Option FlagRule}

theorem Beside.call {p : ServiceState} {trace : List Exchange} {stages : Nat → Stage} {caller : Nat}
    {request : Request} (h : Beside project flag rule before p trace stages)
    (hpermits : Stage.permits project flag rule (stages caller) request) :
    Beside project flag rule before (p.call supply request).2
      (trace ++ [⟨caller, request, (p.call supply request).1⟩])
      (Function.update stages caller
        (Stage.after (stages caller) request (p.call supply request).1)) := by
  obtain ⟨habsent, hstages⟩ := h
  have hcaller : caller < 2 := by
    by_contra hge
    rw [habsent caller (by omega)] at hpermits
    exact hpermits
  refine ⟨fun i hi => ?_, ?_⟩
  · rw [Function.update_of_ne (by omega)]
    exact habsent i hi
  rw [List.map_append]
  obtain ⟨reply, s', hs, hcall⟩ | ⟨e, -, hcall⟩ := p.call_cases supply request
  · rw [hcall]
    obtain rfl | rfl : caller = 0 ∨ caller = 1 := by omega
    · rw [Function.update_self, Function.update_of_ne (by decide)]
      obtain hfailed | hfailed | ⟨hcreation, hwrite⟩ := hstages
      · exact .inl (by rw [hfailed]; rfl)
      · exact .inr (.inl hfailed)
      · exact .inr (.inr (hcreation.creation_step hwrite hpermits hs))
    · rw [Function.update_self, Function.update_of_ne (by decide)]
      obtain hfailed | hfailed | ⟨hcreation, hwrite⟩ := hstages
      · exact .inl hfailed
      · exact .inr (.inl (by rw [hfailed]; rfl))
      · exact .inr (.inr (hcreation.write_step hwrite hpermits hs))
  · rw [hcall]
    have hafter : Stage.after (stages caller) request (.error e) = .failed := by
      cases stages caller <;> rfl
    obtain rfl | rfl : caller = 0 ∨ caller = 1 := by omega
    · exact .inl (by rw [Function.update_self, hafter])
    · exact .inr (.inl (by rw [Function.update_self, hafter]))

theorem Beside.invariant :
    (Stage.discipline project flag rule).Invariant supply (Beside project flag rule before) where
  call h hpermits := h.call hpermits
  name {p trace stages caller} h hnames := by
    obtain ⟨habsent, hstages⟩ := h
    obtain ⟨flags, hread⟩ := hnames
    have hcaller : caller < 2 := by
      by_contra hge
      rw [habsent caller (by omega)] at hread
      cases hread
    refine ⟨fun i hi => ?_, ?_⟩
    · rw [Function.update_of_ne (by omega)]
      exact habsent i hi
    obtain rfl | rfl : caller = 0 ∨ caller = 1 := by omega
    · rw [Function.update_self, Function.update_of_ne (by decide)]
      obtain hfailed | hfailed | ⟨hcreation, hwrite⟩ := hstages
      · rw [hfailed] at hread
        cases hread
      · exact .inr (.inl hfailed)
      · rw [hread] at hcreation ⊢
        exact .inr (.inr ⟨hcreation, hwrite⟩)
    · obtain hfailed | hfailed | ⟨-, hwrite⟩ := hstages
      · exact .inl hfailed
      · rw [hfailed] at hread
        cases hread
      · rw [hread] at hwrite
        exact hwrite.elim
  tick h := h
  count h := h

theorem Beside.start (p : ServiceState) (name : String) :
    (Pool.ofCommands p [.createEnvironment project name, .writeFlag project flag rule]).Follows
      (Stage.discipline project flag rule) Stage.ends
      (Beside project flag rule (p.store.projectFlag project flag)) := by
  let stages : Nat → Stage
    | 0 => .creating
    | 1 => .writing
    | _ => .absent
  have hbeyond : ∀ i, 2 ≤ i → stages i = .absent := by
    intro i hi
    obtain ⟨j, rfl⟩ := Nat.exists_eq_add_of_le' hi
    rfl
  refine ⟨stages, hbeyond, fun i call hcall => ?_, hbeyond, .inr (.inr ⟨trivial, rfl⟩)⟩
  match i with
  | 0 =>
    obtain rfl := Option.some.inj hcall
    exact Stage.obeys_createEnvironment name
  | 1 =>
    obtain rfl := Option.some.inj hcall
    exact Stage.obeys_writeFlag
  | i + 2 => cases hcall

namespace Pool

/-- **A creation beside the write of a flag.**  If both calls succeed, in whatever order their steps
came, the project lists the new environment and has the flag as it was written; and the environment
has the flag as its project has it, unless the write to the project came after the creation had read
it and before the project listed the environment: then it may have it as the project had it
before. -/
theorem created_agrees_or_overtaken (p : ServiceState) (name : String) (schedule : List Nat)
    {e : Environment} {result : (Command.writeFlag project flag rule).Result} :
    let commands : List Command := [.createEnvironment project name, .writeFlag project flag rule]
    let pool := (ofCommands p commands).steps supply schedule
    pool.calls = [⟨.createEnvironment project name, .done (.ok e)⟩,
      ⟨.writeFlag project flag rule, .done (.ok result)⟩] →
    let s := pool.service.store
    s.Lists project e.id ∧ s.environments.contains e.id = true ∧
      s.projectFlag project flag = rule ∧
      (s.environmentFlag e.id flag = s.projectFlag project flag ∨
        s.environmentFlag e.id flag = p.store.projectFlag project flag ∧
          [.getProject, Propagation.projectMethod rule, .attachEnvironment].Sublist
            (pool.trace.map (·.request.method))) := by
  intro commands pool hcalls s
  obtain ⟨stages, -, hobeys, -, hstages⟩ := (Beside.start p name).steps Beside.invariant schedule
  have hcreated : stages 0 = .listed e.id :=
    hobeys 0 ⟨.createEnvironment project name, .done (.ok e)⟩ (by rw [hcalls]; rfl)
  have hwritten : stages 1 = .spread ∨ stages 1 = .wrote [] := by
    have hends := hobeys 1 ⟨.writeFlag project flag rule, .done (.ok result)⟩ (by rw [hcalls]; rfl)
    cases rule <;> exact hends
  rw [hcreated] at hstages
  obtain hfailed | hfailed | ⟨⟨hlists, hexists, hflag⟩, hwrite⟩ := hstages
  · cases hfailed
  · rw [hfailed] at hwritten
    rcases hwritten with h | h <;> cases h
  have hproject : s.projectFlag project flag = rule := by
    rcases hwritten with h | h <;> rw [h] at hwrite <;> exact hwrite
  refine ⟨hlists, hexists, hproject, ?_⟩
  obtain hcopy | ⟨hcopy, hwriting | hover⟩ | ⟨ids, hwrote, hmem⟩ := hflag
  · exact .inl (hcopy.trans hproject.symm)
  · rw [hwriting] at hwritten
    rcases hwritten with h | h <;> cases h
  · exact .inr ⟨hcopy, hover⟩
  · rw [hwrote] at hwritten
    rcases hwritten with h | h
    · cases h
    · obtain rfl := Stage.wrote.inj h
      cases hmem

/-- A run in which the flag is added before the creation reads the project. -/
theorem created_agrees_added_first :
    let commands : List Command :=
      [.createEnvironment "shop" "test", .writeFlag "shop" "dark" (some default)]
    let pool := (ofCommands .shop commands).steps Supply.counting [1, 0, 0, 0, 0, 0]
    let flags : FlagMap := SortedMap.empty.insert "dark" default
    let e := Environment.new (Supply.counting.id 6) "test" flags ⟨5, 0⟩
    let s := pool.service.store
    pool.calls = [⟨.createEnvironment "shop" "test", .done (.ok e)⟩,
        ⟨.writeFlag "shop" "dark" (some default), .done (.ok ⟨"dark", default⟩)⟩] ∧
      s.Lists "shop" e.id ∧ s.environments.contains e.id = true ∧
      s.projectFlag "shop" "dark" = some default ∧
      (s.environmentFlag e.id "dark" = s.projectFlag "shop" "dark" ∨
        s.environmentFlag e.id "dark" = ServiceState.shop.store.projectFlag "shop" "dark" ∧
          [.getProject, .insertProjectFlag, .attachEnvironment].Sublist
            (pool.trace.map (·.request.method))) := by
  have hcalls : ((ofCommands .shop [.createEnvironment "shop" "test",
        .writeFlag "shop" "dark" (some default)]).steps Supply.counting [1, 0, 0, 0, 0, 0]).calls
      = [⟨.createEnvironment "shop" "test", .done (.ok (Environment.new (Supply.counting.id 6)
          "test" (SortedMap.empty.insert "dark" default) ⟨5, 0⟩))⟩,
        ⟨.writeFlag "shop" "dark" (some default), .done (.ok ⟨"dark", default⟩)⟩] := rfl
  exact ⟨hcalls, created_agrees_or_overtaken .shop "test" [1, 0, 0, 0, 0, 0] hcalls⟩

/-- Without the exception the statement fails: in this run the creation has read the project before
the flag is added, and is listed after it, so that the flag reaches it neither way. -/
theorem created_not_always_agrees :
    ¬ ∀ (supply : Supply) (p : ServiceState) (project name flag : String)
      (rule : Option FlagRule) (schedule : List Nat) (e : Environment)
      (result : (Command.writeFlag project flag rule).Result),
      Function.Injective supply.id → p.faults = [] → p.store.environmentWritesFail = false →
      p.store.projectLinksFail = false → p.store.projects.contains project = true →
      let commands : List Command := [.createEnvironment project name, .writeFlag project flag rule]
      let pool := (ofCommands p commands).steps supply schedule
      pool.calls = [⟨.createEnvironment project name, .done (.ok e)⟩,
        ⟨.writeFlag project flag rule, .done (.ok result)⟩] →
      pool.service.store.environmentFlag e.id flag
        = pool.service.store.projectFlag project flag := by
  intro h
  have hagrees := h Supply.counting .shop "shop" "test" "dark" (some default) [0, 1, 0, 0, 0, 0]
    (Environment.new (Supply.counting.id 6) "test" .empty ⟨5, 0⟩) ⟨"dark", default⟩
    Supply.counting_id_injective rfl rfl rfl rfl rfl
  have hholds := congrArg Option.isSome hagrees
  revert hholds
  decide +kernel

end Pool

end FeatureFlags
