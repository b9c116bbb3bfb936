import FeatureFlags.Proofs.History.Session
import FeatureFlags.Proofs.Json.Record

/-!
What is stored stays valid.

Names are checked, and rules that are null told from rules that are absent, where the body of a
request is read and nowhere else.  So a command that a request asks for is valid
(`Service.valid_of_requested?`); but what it writes may come out of the store again, as when the
flags of a project are copied to a new environment.  That too is valid as long as the store is: a
valid command asks for valid requests if it is given valid replies (`Command.Valid.asks`), and these
keep the store valid and give such replies (`Store.perform_valid`).
-/

namespace FeatureFlags

/-! ### Properties of all entries -/

namespace SortedMap

variable {α : Type} {P : String → α → Prop} {m : SortedMap α}

/-- Every entry has the property. -/
def Forall (P : String → α → Prop) (m : SortedMap α) : Prop :=
  ∀ key value, m.get? key = some value → P key value

theorem forall_empty (P : String → α → Prop) : (empty : SortedMap α).Forall P := by
  intro key value h
  cases h

theorem Forall.insert (h : m.Forall P) {key : String} {value : α} (hnew : P key value) :
    (m.insert key value).Forall P := by
  intro other old hget
  rw [get?_insert] at hget
  split at hget
  case isTrue heq =>
    obtain rfl := Option.some.inj hget
    exact heq ▸ hnew
  case isFalse => exact h other old hget

theorem Forall.erase (h : m.Forall P) (key : String) : (m.erase key).Forall P := by
  intro other old hget
  rw [get?_erase] at hget
  split at hget
  · cases hget
  · exact h other old hget

end SortedMap

/-! ### Valid documents -/

/-- A rule that is absent is stored as such, and not as a tree that is null. -/
def FlagRule.Valid (rule : FlagRule) : Prop := rule.rules ≠ some .null

/-- A patch that clears the rule does not put a tree in its place that is null. -/
def FlagPatch.Valid (patch : FlagPatch) : Prop := patch.rules ≠ some (some .null)

/-- A flag that may be stored: of a permitted name, and with a valid rule. -/
def Flag.Valid (flag : Flag) : Prop := Named.flag.Permits flag.name ∧ flag.rule.Valid

def FlagMap.Valid (flags : FlagMap) : Prop := flags.Forall fun flag rule => Flag.Valid ⟨flag, rule⟩

structure Project.Valid (project : Project) : Prop where
  name : Named.project.Permits project.name
  flags : project.flags.Valid

structure Environment.Valid (e : Environment) : Prop where
  name : Named.environment.Permits e.name
  flags : e.flags.Valid
  keys : ∀ scope, (e.keys scope).Forall fun _ descriptor => Named.key.Permits descriptor.name

/-- All documents are valid, and projects are kept under their own names. -/
structure Store.Valid (s : Store) : Prop where
  projects : s.projects.Forall fun name project => project.name = name ∧ project.Valid
  environments : s.environments.Forall fun _ e => e.Valid

/-! ### Changes that keep documents valid -/

theorem FlagPatch.Valid.apply {patch : FlagPatch} {rule : FlagRule} (h : patch.Valid)
    (hrule : rule.Valid) : (patch.apply rule).Valid := by
  intro hnull
  cases hrules : patch.rules with
  | none =>
    rw [FlagPatch.apply, hrules] at hnull
    exact hrule hnull
  | some rules =>
    rw [FlagPatch.apply, hrules] at hnull
    obtain rfl : rules = some .null := hnull
    exact h hrules

theorem FlagMap.Valid.assign {flags : FlagMap} (h : flags.Valid) {flag : String}
    {rule : Option FlagRule} (hrule : ∀ new, rule = some new → Flag.Valid ⟨flag, new⟩) :
    (flags.assign flag rule).Valid := by
  cases rule with
  | none => exact SortedMap.Forall.erase h flag
  | some new => exact SortedMap.Forall.insert h (hrule new rfl)

/-- A flag that is there can be patched. -/
theorem FlagMap.Valid.patch {flags : FlagMap} (h : flags.Valid) {flag : String} {rule : FlagRule}
    {patch : FlagPatch} (hpatch : patch.Valid) (hget : flags.get? flag = some rule) :
    (flags.assign flag (some (patch.apply rule))).Valid := by
  obtain ⟨hname, hrule⟩ := h flag rule hget
  refine h.assign ?_
  rintro new ⟨⟩
  exact ⟨hname, hpatch.apply hrule⟩

theorem Environment.keys_withKeys (e : Environment) (scope other : KeyScope) (keys : KeyMap) :
    (e.withKeys scope keys).keys other = if other = scope then keys else e.keys other := by
  cases scope <;> cases other <;> rfl

theorem Environment.Valid.rekey {e : Environment} (h : e.Valid) {scope : KeyScope} {keys : KeyMap}
    (hkeys : keys.Forall fun _ descriptor => Named.key.Permits descriptor.name)
    (now : Timestamp) : (e.rekey scope keys now).Valid where
  name := by cases scope <;> exact h.name
  flags := by cases scope <;> exact h.flags
  keys other := by
    have hother : (e.rekey scope keys now).keys other
        = if other = scope then keys else e.keys other := by
      rw [← keys_withKeys]
      cases other <;> rfl
    rw [hother]
    split
    · exact hkeys
    · exact h.keys other

namespace Store

variable {s s' : Store} {now : Nat → Timestamp}

theorem valid_empty : Valid .empty where
  projects := SortedMap.forall_empty _
  environments := SortedMap.forall_empty _

/-- A project that is changed, but not in its name. -/
theorem Valid.replaceProject (h : s.Valid) {name : String} {project project' : Project}
    (hp : s.projects.get? name = some project) (hname : project'.name = project.name)
    (hflags : project'.flags.Valid) :
    Valid { s with projects := s.projects.insert name project' } where
  projects := by
    obtain ⟨hfiled, hvalid⟩ := h.projects name project hp
    exact h.projects.insert ⟨hname.trans hfiled, hname ▸ hvalid.name, hflags⟩
  environments := h.environments

theorem Valid.insertEnvironment (h : s.Valid) (id : String) {e : Environment} (he : e.Valid) :
    Valid { s with environments := s.environments.insert id e } where
  projects := h.projects
  environments := h.environments.insert he

theorem Valid.detached {clock : Timestamp → Prop} {id : String} (h : s.Valid)
    (hdetached : Detached clock id s s') : s'.Valid where
  projects := by
    intro name project' hp'
    obtain ⟨time, -, hget⟩ := hdetached.projects name
    obtain ⟨project, hp, rfl⟩ := Option.map_eq_some_iff.1 (hget.symm.trans hp')
    obtain ⟨hfiled, hvalid⟩ := h.projects name project hp
    have hname : (project.detach id time).name = project.name := by
      rw [Project.detach]
      split <;> rfl
    refine ⟨hname.trans hfiled, hname ▸ hvalid.name, ?_⟩
    rw [Project.flags_detach]
    exact hvalid.flags
  environments := by
    rw [hdetached.frame]
    exact h.environments

theorem Valid.cascaded {clock : Timestamp → Prop} {ids : List String} {flag : String}
    {rule : Option FlagRule} {written : Nat} (h : s.Valid)
    (hrule : ∀ new, rule = some new → Flag.Valid ⟨flag, new⟩)
    (hcascaded : Cascaded clock ids flag rule s s' written) : s'.Valid where
  projects := by
    rw [hcascaded.frame]
    exact h.projects
  environments := by
    intro id e' he'
    by_cases hid : id ∈ ids
    · obtain ⟨time, -, hget⟩ := hcascaded.listed id hid
      obtain ⟨e, he, rfl⟩ := Option.map_eq_some_iff.1 (hget.symm.trans he')
      have hvalid := h.environments id e he
      exact ⟨hvalid.name, hvalid.flags.assign hrule, hvalid.keys⟩
    · rw [hcascaded.unlisted id hid] at he'
      exact h.environments id e' he'

/-! ### Requests to the store -/

/-- What the request brings into the store is valid. -/
def Request.Valid : Request → Prop
  | .insertProject project => project.Valid
  | .insertProjectFlag _ flag rule | .setEnvironmentsFlag _ flag rule => Flag.Valid ⟨flag, rule⟩
  | .patchProjectFlag _ _ patch | .patchEnvironmentFlag _ _ patch => patch.Valid
  | .insertEnvironment environment => environment.Valid
  | .renameEnvironment _ name => Named.environment.Permits name
  | .insertApiKey _ _ _ descriptor => Named.key.Permits descriptor.name
  | .ping | .listProjects .. | .getProject _ | .deleteProject _ | .attachEnvironment ..
  | .detachEnvironment _ | .removeProjectFlag .. | .getEnvironment _ | .deleteEnvironment _
  | .unsetEnvironmentsFlag .. | .removeEnvironmentFlag .. | .deleteApiKey .. => True

/-- What is read out of the store to be written again is valid. -/
def Request.GivesValid : (request : Request) → request.Reply → Prop
  | .getProject _, project => Project.Valid project
  | _, _ => True

/-- A valid request keeps the store valid, and is given a valid reply. -/
theorem perform_valid {request : Request} {reply : request.Reply} (h : s.Valid)
    (hrequest : request.Valid) (hs : s.perform now request = .ok (reply, s')) :
    s'.Valid ∧ request.GivesValid reply := by
  cases request with
  | ping | listProjects | getEnvironment =>
    obtain rfl := perform_reads hs rfl
    exact ⟨h, trivial⟩
  | getProject name =>
    obtain ⟨hfound, rfl⟩ := unchanged_eq_ok.1 hs
    exact ⟨h, (h.projects name _ (getProject_eq_ok.1 hfound)).2⟩
  | insertProject project =>
    obtain ⟨-, rfl⟩ := insertProject_eq_ok.1 (silent_eq_ok.1 hs)
    exact ⟨⟨h.projects.insert ⟨rfl, hrequest⟩, h.environments⟩, trivial⟩
  | deleteProject name =>
    obtain ⟨-, rfl⟩ := deleteProject_eq_ok.1 hs
    exact ⟨⟨h.projects.erase name, h.environments⟩, trivial⟩
  | attachEnvironment name id =>
    obtain ⟨-, project, hp, rfl⟩ := attachEnvironment_eq_ok.1 (silent_eq_ok.1 hs)
    exact ⟨h.replaceProject hp rfl (h.projects name project hp).2.flags, trivial⟩
  | detachEnvironment id => exact ⟨h.detached (detachEnvironment_eq_ok hs).2, trivial⟩
  | insertProjectFlag name flag rule =>
    obtain ⟨project, hp, -, -, rfl⟩ := insertProjectFlag_eq_ok.1 hs
    refine ⟨h.replaceProject hp rfl ((h.projects name project hp).2.flags.assign ?_), trivial⟩
    rintro new ⟨⟩
    exact hrequest
  | patchProjectFlag name flag patch =>
    obtain ⟨project, rule, hp, hrule, -, rfl⟩ := patchProjectFlag_eq_ok.1 hs
    have hflags := (h.projects name project hp).2.flags
    exact ⟨h.replaceProject hp rfl (hflags.patch hrequest hrule), trivial⟩
  | removeProjectFlag name flag =>
    obtain ⟨project, hp, -, rfl⟩ := removeProjectFlag_eq_ok.1 hs
    refine ⟨h.replaceProject hp rfl ((h.projects name project hp).2.flags.assign ?_), trivial⟩
    rintro new ⟨⟩
  | insertEnvironment environment =>
    obtain ⟨-, rfl⟩ := insertEnvironment_eq_ok.1 (silent_eq_ok.1 hs)
    exact ⟨h.insertEnvironment _ hrequest, trivial⟩
  | renameEnvironment id name =>
    obtain ⟨e, he, rfl, rfl⟩ := renameEnvironment_eq_ok.1 hs
    have hvalid := h.environments id e he
    exact ⟨h.insertEnvironment id ⟨hrequest, hvalid.flags, hvalid.keys⟩, trivial⟩
  | deleteEnvironment id =>
    obtain ⟨-, rfl⟩ := deleteEnvironment_eq_ok.1 (silent_eq_ok.1 hs)
    exact ⟨⟨h.projects, h.environments.erase id⟩, trivial⟩
  | setEnvironmentsFlag ids flag rule =>
    have hset : s.updateEnvironmentFlags ids (·.assign flag (some rule)) now = .ok (reply, s') := hs
    refine ⟨h.cascaded ?_ (updateEnvironmentFlags_eq_ok hset).2, trivial⟩
    rintro new ⟨⟩
    exact hrequest
  | unsetEnvironmentsFlag ids flag =>
    have hunset : s.updateEnvironmentFlags ids (·.assign flag none) now = .ok (reply, s') := hs
    refine ⟨h.cascaded ?_ (updateEnvironmentFlags_eq_ok hunset).2, trivial⟩
    rintro new ⟨⟩
  | patchEnvironmentFlag id flag patch =>
    obtain ⟨e, rule, he, hrule, -, rfl⟩ := patchEnvironmentFlag_eq_ok.1 hs
    have hvalid := h.environments id e he
    exact ⟨h.insertEnvironment id
      ⟨hvalid.name, hvalid.flags.patch hrequest hrule, hvalid.keys⟩, trivial⟩
  | removeEnvironmentFlag id flag =>
    obtain ⟨e, he, rfl⟩ := removeEnvironmentFlag_eq_ok.1 (silent_eq_ok.1 hs)
    have hvalid := h.environments id e he
    refine ⟨h.insertEnvironment id ⟨hvalid.name, hvalid.flags.assign ?_, hvalid.keys⟩, trivial⟩
    rintro new ⟨⟩
  | insertApiKey id scope key descriptor =>
    obtain ⟨e, he, rfl⟩ := insertApiKey_eq_ok.1 (silent_eq_ok.1 hs)
    have hvalid := h.environments id e he
    exact ⟨h.insertEnvironment id (hvalid.rekey ((hvalid.keys scope).insert hrequest) _), trivial⟩
  | deleteApiKey id scope key =>
    obtain ⟨e, he, rfl⟩ := deleteApiKey_eq_ok.1 (silent_eq_ok.1 hs)
    have hvalid := h.environments id e he
    exact ⟨h.insertEnvironment id (hvalid.rekey ((hvalid.keys scope).erase key) _), trivial⟩

end Store

/-! ### Bodies -/

theorem FlagRule.valid_of_ofRecord? {record : Record} {rule : FlagRule}
    (h : ofRecord? record = some rule) : rule.Valid := by
  obtain ⟨rules, hrules, h⟩ := Option.bind_eq_some_iff.1 h
  obtain ⟨defaultValue, -, h⟩ := Option.bind_eq_some_iff.1 h
  obtain rfl := Option.some.inj h
  rintro rfl
  rw [Record.withDefault] at hrules
  split at hrules
  · exact Decoder.nullable_value_ne _ _ hrules
  · cases hrules

theorem Flag.valid_of_decode {depth : Nat} {document : Document} {flag : Flag}
    (h : decode depth document = some flag) : flag.rule.Valid := by
  obtain ⟨record, -, h⟩ := Option.bind_eq_some_iff.1 h
  obtain ⟨name, -, h⟩ := Option.bind_eq_some_iff.1 h
  obtain ⟨rule, hrule, h⟩ := Option.bind_eq_some_iff.1 h
  obtain rfl := Option.some.inj h
  exact FlagRule.valid_of_ofRecord? hrule

theorem FlagPatch.valid_of_decode {depth : Nat} {document : Document} {patch : FlagPatch}
    (h : decode depth document = some patch) : patch.Valid := by
  obtain ⟨record, -, h⟩ := Option.bind_eq_some_iff.1 h
  obtain ⟨rules, hrules, h⟩ := Option.bind_eq_some_iff.1 h
  obtain ⟨defaultValue, -, h⟩ := Option.bind_eq_some_iff.1 h
  obtain rfl := Option.some.inj h
  rintro rfl
  rw [Record.withDefault] at hrules
  split at hrules
  · obtain ⟨rules, hvalue, hsome⟩ := Option.map_eq_some_iff.1 hrules
    obtain rfl := Option.some.inj hsome
    exact Decoder.nullable_value_ne _ _ hvalue
  · cases hrules

namespace Admin

theorem decode_of_readBody {α : Type} {decode : Decoder α} {body : List UInt8} {value : α}
    (h : readBody decode body = .ok value) :
    ∃ document, decode Document.maxDepth document = some value := by
  rw [readBody] at h
  split at h
  case h_1 found hfound =>
    obtain rfl := Except.ok.inj h
    obtain ⟨document, -, hdecode⟩ := Option.bind_eq_some_iff.1 hfound
    exact ⟨document, hdecode⟩
  case h_2 => cases h

theorem checkName_eq_ok {entity : Named} {name : String} {u : Unit} :
    checkName entity name = .ok u ↔ entity.Permits name := by
  rw [checkName]
  split
  case isTrue h => exact iff_of_true rfl h
  case isFalse h => exact iff_of_false (fun hok => nomatch hok) h

end Admin

/-! ### Commands -/

namespace Command

/-- The names that the command brings are permitted, and its rules are valid. -/
def Valid : Command → Prop
  | .createProject name => Named.project.Permits name
  | .addFlag _ flag => flag.Valid
  | .patchFlag _ _ patch | .patchEnvironmentFlag _ _ patch => patch.Valid
  | .createEnvironment _ name | .renameEnvironment _ name => Named.environment.Permits name
  | .createKey _ _ name => Named.key.Permits name
  | .listProjects .. | .getProject _ | .deleteProject _ | .removeFlag .. | .resyncFlag ..
  | .getEnvironment _ | .deleteEnvironment _ | .removeEnvironmentFlag .. | .deleteKey .. => True

/-- A valid command asks the store for what is valid, as long as it is given what is valid. -/
theorem Valid.asks {command : Command} (h : command.Valid) :
    command.program.Asks Store.Request.Valid Store.Request.GivesValid := by
  cases command with
  | createProject name =>
    intro now id
    exact Action.asks_store ⟨h, SortedMap.forall_empty _⟩ fun _ _ => trivial
  | addFlag project flag =>
    refine Action.asks_store h fun ids _ => ?_
    exact Propagation.asks_cascade h fun _ => trivial
  | removeFlag project flag =>
    refine Action.asks_store trivial fun ids _ => ?_
    exact Propagation.asks_cascade trivial fun _ => trivial
  | resyncFlag project flag =>
    refine Action.asks_store trivial fun found hfound => ?_
    refine Propagation.asks_cascade ?_ fun _ => trivial
    -- what is sent to the environments is what the project has
    cases hrule : (found : Project).flags.get? flag with
    | none => exact trivial
    | some rule => exact hfound.flags flag rule hrule
  | createEnvironment project name =>
    refine Action.asks_store trivial fun found hfound now id => ?_
    -- the environment starts with the flags of the project and without keys
    have hkeys : ∀ scope, ((Environment.new id name (found : Project).flags now).keys scope).Forall
        fun _ descriptor => Named.key.Permits descriptor.name := by
      intro scope
      cases scope <;> exact SortedMap.forall_empty _
    refine Action.asks_store ⟨h, hfound.flags, hkeys⟩ fun _ _ => ⟨trivial, fun reply _ => ?_⟩
    cases reply with
    | ok _ => exact trivial
    | error e => exact ⟨trivial, fun _ _ => trivial⟩
  | createKey scope id name =>
    intro key now
    exact Action.asks_store h fun _ _ => trivial
  | deleteEnvironment id =>
    refine Action.asks_store trivial fun _ _ => ⟨trivial, fun reply _ => ?_⟩
    cases reply <;> exact trivial
  | patchFlag | renameEnvironment | patchEnvironmentFlag =>
    exact Action.asks_store h fun _ _ => trivial
  | listProjects | getProject | deleteProject | getEnvironment | removeEnvironmentFlag
  | deleteKey => exact Action.asks_store trivial fun _ _ => trivial

end Command

namespace Service

open Http

variable {options : Options} {request : Request} {command : Command}

theorem permits_of_readName {entity : Named} {body : List UInt8} {name : String}
    (h : readName entity body = .ok name) : entity.Permits name := by
  obtain ⟨_, -, hchecked⟩ := bind_eq_ok_iff.1 h
  obtain ⟨_, hname, rfl⟩ := map_eq_ok_iff.1 hchecked
  exact Admin.checkName_eq_ok.1 hname

/-- Arguments are checked before they make a command. -/
theorem valid_of_bodyCommand? {body : List UInt8} {operation : Operation}
    (h : bodyCommand? body operation = some (.ok command)) : command.Valid := by
  cases operation with
  | createProject | createEnvironment | createKey =>
    obtain ⟨_, hname, rfl⟩ := map_eq_ok_iff.1 (Option.some.inj h)
    exact permits_of_readName hname
  | addFlag =>
    obtain ⟨flag, hflag, hchecked⟩ := bind_eq_ok_iff.1 (Option.some.inj h)
    obtain ⟨_, hname, rfl⟩ := map_eq_ok_iff.1 hchecked
    obtain ⟨_, hdecode⟩ := Admin.decode_of_readBody hflag
    exact ⟨Admin.checkName_eq_ok.1 hname, Flag.valid_of_decode hdecode⟩
  | patchFlag | patchEnvironmentFlag =>
    obtain ⟨_, hpatch, rfl⟩ := map_eq_ok_iff.1 (Option.some.inj h)
    obtain ⟨_, hdecode⟩ := Admin.decode_of_readBody hpatch
    exact FlagPatch.valid_of_decode hdecode
  | renameEnvironment =>
    obtain ⟨_, -, hchecked⟩ := bind_eq_ok_iff.1 (Option.some.inj h)
    obtain ⟨_, hname, rfl⟩ := map_eq_ok_iff.1 hchecked
    exact Admin.checkName_eq_ok.1 hname
  | getProject | deleteProject | removeFlag | resyncFlag | getEnvironment | deleteEnvironment
  | removeEnvironmentFlag | deleteKey =>
    obtain rfl := Except.ok.inj (Option.some.inj h)
    exact trivial
  | listProjects | index | health | readiness | samples | getRules | evaluateFlags
  | evaluateFlag => cases h

theorem valid_of_requested? (h : requested? options request = some (.ok command)) :
    command.Valid := by
  obtain ⟨operation, -, hcommand⟩ := Option.bind_eq_some_iff.1 h
  exact valid_of_bodyCommand? hcommand

end Service

/-! ### Sessions -/

/-- A rule that is shown as null is absent, so the flag has its default value. -/
theorem FlagRule.Valid.evaluate {rule : FlagRule} (h : rule.Valid)
    (hnull : rule.rules.getD .null = .null) (context : Json) :
    rule.evaluate context = .success rule.defaultValue := by
  cases hrules : rule.rules with
  | none => rw [FlagRule.evaluate, hrules]
  | some tree =>
    rw [hrules] at hnull
    obtain rfl : tree = .null := hnull
    exact absurd hrules h

namespace Session

variable (options : Service.Options) (supply : Supply)

theorem valid_run (events : List Event) : (run options supply events).store.Valid := by
  refine kept Store.valid_empty ?_ ?_ events
  · intro request command p hrequested h
    exact (Service.valid_of_requested? hrequested).asks.run Store.perform_valid h
  · intro s _ _ h
    exact ⟨h.projects, h.environments⟩

/-- **Names and rules stay valid**: throughout a session, whatever is asked for and whatever fails
in between, the names of projects, environments, flags and keys have their permitted lengths, and
the rule of a flag is never a tree that is null.  So a flag whose rule is shown as null evaluates to
its default value. -/
theorem names_and_rules_valid (events : List Event) :
    let s := (run options supply events).store
    (∀ name project, s.projects.get? name = some project →
      project.name = name ∧ 8 ≤ name.length ∧ name.length ≤ 20) ∧
    (∀ id e, s.environments.get? id = some e → 3 ≤ e.name.length ∧ e.name.length ≤ 20) ∧
    (∀ flags : FlagMap, (∃ name, s.projectFlags name = some flags) ∨
      (∃ id, s.environmentFlags id = some flags) →
      ∀ flag rule, flags.get? flag = some rule → 4 ≤ flag.length ∧ flag.length ≤ 20 ∧
        rule.rules ≠ some .null ∧ (rule.rules.getD .null = .null →
          ∀ context, rule.evaluate context = .success rule.defaultValue)) ∧
    ∀ id e, s.environments.get? id = some e → ∀ scope key descriptor,
      (e.keys scope).get? key = some descriptor →
      4 ≤ descriptor.name.length ∧ descriptor.name.length ≤ 20 := by
  intro s
  have hvalid : s.Valid := valid_run options supply events
  refine ⟨?_, ?_, ?_, ?_⟩
  · intro name project hp
    obtain ⟨rfl, hproject⟩ := hvalid.projects name project hp
    exact ⟨rfl, hproject.name⟩
  · exact fun id e he => (hvalid.environments id e he).name
  · intro flags hflags flag rule hrule
    have hmap : flags.Valid := by
      obtain ⟨name, hname⟩ | ⟨id, hid⟩ := hflags
      · obtain ⟨project, hp, rfl⟩ := Option.map_eq_some_iff.1 hname
        exact (hvalid.projects name project hp).2.flags
      · obtain ⟨e, he, rfl⟩ := Option.map_eq_some_iff.1 hid
        exact (hvalid.environments id e he).flags
    obtain ⟨hname, hrules⟩ := hmap flag rule hrule
    exact ⟨hname.1, hname.2, hrules, fun hnull context => hrules.evaluate hnull context⟩
  · exact fun id e he scope key descriptor hget =>
      (hvalid.environments id e he).keys scope key descriptor hget

/-- The rule of a flag is cleared in one environment, while the writes to several of them fail. -/
theorem names_and_rules_valid_cleared :
    let options : Service.Options := ⟨10, true⟩
    let body (text : String) : List UInt8 := text.toList.map fun c => c.toNat.toUInt8
    let events : List Event :=
      [.request ⟨"POST", "/admin/projects", [], body "\x7b\"name\":\"storefront\"\x7d"⟩,
        .request ⟨"POST", "/admin/projects/storefront/flags", [],
          body "\x7b\"name\":\"beta\",\"rules\":false,\"default\":true\x7d"⟩,
        .request ⟨"POST", "/admin/projects/storefront", [],
          body "\x7b\"name\":\"test\"\x7d"⟩,
        .failEnvironmentWrites true,
        .request ⟨"PATCH", "/admin/iiiiii/flags/beta", [], body "\x7b\"rules\":null\x7d"⟩]
    let s := (run options Supply.counting events).store
    ∃ e rule, s.environments.get? "iiiiii" = some e ∧ e.flags.get? "beta" = some rule ∧
      3 ≤ e.name.length ∧ e.name.length ≤ 20 ∧
      rule.rules.getD .null = .null ∧ rule.evaluate .emptyObject = .success rule.defaultValue := by
  intro options body events s
  have hcleared : ((s.environments.get? "iiiiii").bind (·.flags.get? "beta")).map
      (·.rules.isNone) = some true := by
    decide +kernel
  obtain ⟨rule, hrule, hnone⟩ := Option.map_eq_some_iff.1 hcleared
  obtain ⟨e, he, hflag⟩ := Option.bind_eq_some_iff.1 hrule
  have hnull : rule.rules.getD .null = .null := by
    rw [Option.isNone_iff_eq_none.1 hnone]
    rfl
  obtain ⟨-, hnames, hrules, -⟩ := names_and_rules_valid options Supply.counting events
  have hflags : s.environmentFlags "iiiiii" = some e.flags := Option.map_eq_some_iff.2 ⟨e, he, rfl⟩
  obtain ⟨-, -, -, hdefault⟩ := hrules e.flags (.inr ⟨_, hflags⟩) "beta" rule hflag
  exact ⟨e, rule, he, hflag, (hnames _ e he).1, (hnames _ e he).2, hnull, hdefault hnull _⟩

end Session

end FeatureFlags
