import FeatureFlags.Proofs.Decimal.ReadBack
import FeatureFlags.Proofs.History.Validity
import FeatureFlags.Proofs.Http.Paths
import FeatureFlags.Proofs.Store.Parts
import FeatureFlags.Proofs.Text.ByteOrder

/-!
Projects, page by page.

Pages are windows of one size on the projects, one behind the other, so that the first of them put
together are a first part of the projects (`Store.flatMap_page`), which is all of them once a page
is empty.  The projects of a store are sorted by the names under which they are kept, and these are
their own names in every store that requests can lead to (`Store.Reachable.byName`).
-/

namespace FeatureFlags

variable {s s' : Store} {now : Nat → Timestamp} {size offset limit : Nat}

namespace Store

/-! ### Reachable stores -/

/-- The stores that requests and turns of the switches lead to from the empty one, whatever the
clock shows. -/
inductive Reachable : Store → Prop where
  | empty : Reachable .empty
  | perform {s s' : Store} {now : Nat → Timestamp} {request : Request} {reply : request.Reply}
      (h : Reachable s) (hs : s.perform now request = .ok (reply, s')) : Reachable s'
  | switch {s : Store} (h : Reachable s) (environmentWritesFail projectLinksFail : Bool) :
      Reachable { s with environmentWritesFail, projectLinksFail }

/-- The projects are kept under their names. -/
def ByName (s : Store) : Prop := s.projects.Forall fun name project => project.name = name

theorem ByName.replace (h : s.ByName) {name : String} {old new : Project}
    (hold : s.projects.get? name = some old) (hname : new.name = old.name) :
    ByName { s with projects := s.projects.insert name new } :=
  SortedMap.Forall.insert h (hname.trans (h name old hold))

theorem ByName.perform {request : Request} {reply : request.Reply} (h : s.ByName)
    (hs : s.perform now request = .ok (reply, s')) : s'.ByName := by
  cases hwrites : request.method.writesProjects with
  | false =>
    rw [ByName, projects_perform hs hwrites]
    exact h
  | true =>
    cases request with
    | insertProject project =>
      obtain ⟨-, rfl⟩ := insertProject_eq_ok.1 (silent_eq_ok.1 hs)
      exact SortedMap.Forall.insert h rfl
    | deleteProject name =>
      obtain ⟨-, rfl⟩ := deleteProject_eq_ok.1 hs
      exact SortedMap.Forall.erase h name
    | attachEnvironment name id =>
      obtain ⟨-, project, hp, rfl⟩ := attachEnvironment_eq_ok.1 (silent_eq_ok.1 hs)
      exact h.replace hp rfl
    | detachEnvironment id =>
      intro name project hp
      obtain ⟨time, -, hget⟩ := (detachEnvironment_eq_ok hs).2.projects name
      obtain ⟨old, hold, rfl⟩ := Option.map_eq_some_iff.1 (hget.symm.trans hp)
      exact (old.agreesBut_detach id time).name.trans (h name old hold)
    | insertProjectFlag name flag rule =>
      obtain ⟨project, hp, -, -, rfl⟩ := insertProjectFlag_eq_ok.1 hs
      exact h.replace hp rfl
    | patchProjectFlag name flag patch =>
      obtain ⟨project, rule, hp, -, -, rfl⟩ := patchProjectFlag_eq_ok.1 hs
      exact h.replace hp rfl
    | removeProjectFlag name flag =>
      obtain ⟨project, hp, -, rfl⟩ := removeProjectFlag_eq_ok.1 hs
      exact h.replace hp rfl
    | _ => cases hwrites

theorem Reachable.byName (h : s.Reachable) : s.ByName := by
  induction h with
  | empty => exact SortedMap.forall_empty _
  | perform _ hs ih => exact ih.perform hs
  | switch _ _ _ ih => exact ih

end Store

theorem Program.reachable_run {α : Type} {supply : Supply} (program : Program α) {p : ServiceState}
    (h : p.store.Reachable) : (program.run supply p).2.store.Reachable := by
  induction program generalizing p with
  | done value => exact h
  | call request resume ih =>
    rw [Program.run]
    obtain ⟨reply, s', hs, hcall⟩ | ⟨e, -, hcall⟩ := p.call_cases supply request
    · rw [hcall]
      exact ih _ (h.perform hs)
    · rw [hcall]
      exact ih _ h
  | readClock resume ih => exact ih _ h
  | newId resume ih => exact ih _ h
  | newKey resume ih => exact ih _ h
  | count series amount next ih => exact ih h

/-- What a session leads to is reachable, whatever fails in it. -/
theorem Session.reachable_run (options : Service.Options) (supply : Supply) (events : List Event) :
    (run options supply events).store.Reachable :=
  kept .empty (fun _ h => Program.reachable_run _ h) (fun fail fail' h => h.switch fail fail')
    events

namespace Store

/-! ### Pages -/

/-- The page of this number, if pages have this size. -/
def page (s : Store) (size number : Nat) : List Project := s.listProjects (number * size) size

/-- The page of this number is empty, and no page before it is. -/
def FirstEmpty (s : Store) (size count : Nat) : Prop :=
  s.page size count = [] ∧ ∀ number < count, s.page size number ≠ []

theorem length_listProjects (s : Store) (offset limit : Nat) :
    (s.listProjects offset limit).length = min limit (s.projects.size - offset) := by
  rw [listProjects, List.length_take, List.length_drop, SortedMap.values, List.length_map,
    SortedMap.size]

/-- There is nothing past the end, and nothing in a page without a size. -/
theorem listProjects_eq_nil :
    s.listProjects offset limit = [] ↔ s.projects.size ≤ offset ∨ limit = 0 := by
  rw [← List.length_eq_zero_iff, length_listProjects]
  omega

/-- The first pages put together are a first part of the projects. -/
theorem flatMap_page (s : Store) (size count : Nat) :
    (List.range count).flatMap (s.page size) = s.projects.values.take (count * size) := by
  induction count with
  | zero => rw [Nat.zero_mul, List.take_zero, List.range_zero, List.flatMap_nil]
  | succ count ih =>
    rw [List.range_succ, List.flatMap_append, ih, List.flatMap_singleton, page, listProjects,
      ← List.take_add, Nat.succ_mul]

theorem page_eq_nil (hsize : 1 ≤ size) {number : Nat} :
    s.page size number = [] ↔ s.projects.size ≤ number * size := by
  rw [page, listProjects_eq_nil]
  omega

/-- The number of pages: that of the projects by the size of a page, rounded up. -/
def pageCount (s : Store) (size : Nat) : Nat := (s.projects.size + size - 1) / size

theorem lt_pageCount (hsize : 1 ≤ size) {number : Nat} :
    number < s.pageCount size ↔ number * size < s.projects.size := by
  rw [pageCount, ← Nat.succ_le_iff, Nat.le_div_iff_mul_le hsize, Nat.succ_mul]
  omega

theorem firstEmpty_iff (hsize : 1 ≤ size) {count : Nat} :
    s.FirstEmpty size count ↔ count = s.pageCount size := by
  have hempty : ∀ {number}, s.page size number = [] ↔ s.pageCount size ≤ number := by
    intro number
    rw [page_eq_nil hsize, ← Nat.not_lt, ← lt_pageCount hsize, Nat.not_lt]
  constructor
  · rintro ⟨hlast, hbefore⟩
    refine Nat.le_antisymm (Nat.le_of_not_lt fun hlt => ?_) (hempty.1 hlast)
    exact hbefore _ hlt (hempty.2 (Nat.le_refl _))
  · rintro rfl
    exact ⟨hempty.2 (Nat.le_refl _), fun number hnumber h => Nat.not_lt.2 (hempty.1 h) hnumber⟩

theorem FirstEmpty.flatMap_page {count : Nat} (h : s.FirstEmpty size count) (hsize : 1 ≤ size) :
    (List.range count).flatMap (s.page size) = s.projects.values := by
  rw [Store.flatMap_page, List.take_of_length_le]
  rw [SortedMap.values, List.length_map]
  exact (page_eq_nil hsize).1 h.1

/-- Every page but the last one is full. -/
theorem FirstEmpty.length_page {count number : Nat} (h : s.FirstEmpty size count)
    (hsize : 1 ≤ size) (hnumber : number + 1 < count) : (s.page size number).length = size := by
  have hnext : number * size + size < s.projects.size := by
    have hne := mt (page_eq_nil hsize).2 (h.2 (number + 1) hnumber)
    rw [Nat.succ_mul] at hne
    omega
  rw [page, length_listProjects]
  omega

/-! ### Names in order -/

theorem ByName.map_name (h : s.ByName) : s.projects.values.map Project.name = s.projects.keys := by
  rw [SortedMap.values, SortedMap.keys, List.map_map]
  apply List.map_congr_left
  intro e he
  exact h e.1 e.2 (SortedMap.get?_eq_some_iff.2 he)

theorem ByName.ascending (h : s.ByName) :
    (s.projects.values.map Project.name).Pairwise fun a b => Text.utf8 a < Text.utf8 b := by
  rw [h.map_name, SortedMap.keys, List.pairwise_map]
  exact s.projects.ascending.imp fun hlt => Text.lt_iff_utf8_lt.1 hlt

/-- A name that is there is there once. -/
theorem ByName.count_name (h : s.ByName) (name : String) :
    (s.projects.values.map Project.name).count name
      = if s.projects.contains name then 1 else 0 := by
  rw [h.map_name]
  have hnodup : s.projects.keys.Nodup := Json.nodup_keys s.projects.ascending
  split
  case isTrue hthere =>
    have hmem : name ∈ s.projects.keys :=
      SortedMap.mem_keys_iff.2 (Option.isSome_iff_exists.1 hthere)
    exact List.count_eq_one_of_mem hnodup hmem
  case isFalse hmissing =>
    refine List.count_eq_zero.2 fun hmem => hmissing ?_
    exact Option.isSome_iff_exists.2 (SortedMap.mem_keys_iff.1 hmem)

/-- A project is listed if it is kept under its name. -/
theorem ByName.mem_values (h : s.ByName) {project : Project} :
    project ∈ s.projects.values ↔ s.projects.get? project.name = some project := by
  rw [SortedMap.get?_eq_some_iff, SortedMap.values, List.mem_map]
  constructor
  · rintro ⟨e, he, rfl⟩
    rw [h e.1 e.2 (SortedMap.get?_eq_some_iff.2 he)]
    exact he
  · exact fun he => ⟨_, he, rfl⟩

end Store

/-! ### Requests for pages -/

/-- An action goes on with the reply to a request that goes through. -/
theorem Action.run_store_ok {α : Type} {supply : Supply} {p p' : ServiceState} (program : Action α)
    {request : Store.Request} {resume : request.Reply → Action α} {reply : request.Reply}
    (hprogram : program = Action.store request resume)
    (hcall : p.call supply request = (.ok reply, p')) :
    program.run supply p = (resume reply).run supply p' := by
  rw [hprogram, Action.store.eq_1, Program.run, hcall]

namespace Http

/-- The part of a query that gives a number for a key. -/
def numberPart (key : String) (n : Nat) : List Char := key.toList ++ '=' :: Text.decimal n

/-- The query for the projects from `start` on, `size` of them. -/
def pageQuery (size start : Nat) : List Char :=
  numberPart "page_size" size ++ '&' :: numberPart "page_start" start

/-- A path with a query behind it. -/
def withQuery (path : String) (query : List Char) : String :=
  String.ofList (path.toList ++ '?' :: query)

/-- The target of a request for the projects from `start` on, `size` of them. -/
def pageTarget (size start : Nat) : String := withQuery "/admin/projects" (pageQuery size start)

theorem mem_decimal_plain {n : Nat} {c : Char} (h : c ∈ Text.decimal n) :
    c ∉ ['#', '?', '&', '=', '%', '/', '+'] := by
  have hdigit := Text.isDigit_of_mem_decimal h
  intro hmem
  simp only [List.mem_cons, List.not_mem_nil, or_false] at hmem
  obtain rfl | rfl | rfl | rfl | rfl | rfl | rfl := hmem <;> cases hdigit

theorem queryText?_decimal (n : Nat) :
    queryText? (Text.decimal n) = some (String.ofList (Text.decimal n)) := by
  have hkept : (Text.decimal n).map (fun c => if c = '+' then ' ' else c) = Text.decimal n := by
    refine (List.map_congr_left fun c hc => ?_).trans (List.map_id _)
    refine if_neg fun hplus => mem_decimal_plain hc ?_
    simp [hplus]
  have hspells : Spells (String.ofList (Text.decimal n)) (String.ofList (Text.decimal n)) := by
    apply spells_self
    intro c hc hmem
    rw [String.toList_ofList] at hc
    refine mem_decimal_plain hc ?_
    simp only [List.mem_cons, List.not_mem_nil, or_false] at hmem
    rcases hmem with rfl | rfl | rfl | rfl <;> decide
  have hdecodes := hspells.decodes
  rw [String.toList_ofList] at hdecodes
  rw [queryText?, hkept, hdecodes]

theorem natural?_decimal {greatest n : Nat} (h : n ≤ greatest) :
    Text.natural? greatest (Text.decimal n) = some n := by
  have hplus : (Text.decimal n).head? ≠ some '+' := by
    intro hhead
    have hmem := List.mem_of_mem_head? hhead
    exact mem_decimal_plain hmem (by decide)
  have hdigits : (Text.decimal n).all Char.isDigit = true :=
    List.all_eq_true.2 fun c hc => Text.isDigit_of_mem_decimal hc
  rw [Text.natural?, if_neg hplus, Text.digitsValue_decimal,
    if_pos ⟨Text.decimal_ne_nil n, hdigits, h⟩]

/-- Behind the key, such a part has no sign that means something in a target. -/
theorem mem_numberPart {key : String} {n : Nat} {c : Char}
    (hsign : c ∈ ['#', '?', '&', '%', '/', '+']) : c ∈ numberPart key n ↔ c ∈ key.toList := by
  have hequals : c ≠ '=' := by
    rintro rfl
    exact absurd hsign (by decide)
  have hdigits : c ∉ Text.decimal n := by
    intro hmem
    refine mem_decimal_plain hmem ?_
    simp only [List.mem_cons, List.not_mem_nil, or_false] at hsign ⊢
    tauto
  rw [numberPart, List.mem_append, List.mem_cons, or_iff_left (not_or.2 ⟨hequals, hdigits⟩)]

theorem queryPairs_pageQuery (size start : Nat) :
    queryPairs (pageQuery size start)
      = [(some "page_size", some (String.ofList (Text.decimal size))),
          (some "page_start", some (String.ofList (Text.decimal start)))] := by
  have hsize : '&' ∉ numberPart "page_size" size :=
    mt (mem_numberPart (by decide)).1 (by decide)
  have hstart : '&' ∉ numberPart "page_start" start :=
    mt (mem_numberPart (by decide)).1 (by decide)
  have hnames : queryText? "page_size".toList = some "page_size" ∧
      queryText? "page_start".toList = some "page_start" := by decide
  rw [queryPairs, pageQuery, splitOn_append_cons hsize, splitOn_of_notMem hstart]
  show [(queryText? "page_size".toList, queryText? (Text.decimal size)),
    (queryText? "page_start".toList, queryText? (Text.decimal start))] = _
  rw [hnames.1, hnames.2, queryText?_decimal, queryText?_decimal]

/-- A target with one question mark between a path and a query. -/
theorem Request.path_of_target {request : Request} {path query : List Char}
    (h : request.target.toList = path ++ '?' :: query) (hpath : ∀ c ∈ path, c ≠ '?' ∧ c ≠ '#')
    (hquery : '#' ∉ query) : request.path = path ∧ request.query = query := by
  have hvisible : request.visibleTarget = path ++ '?' :: query := by
    rw [visibleTarget, h]
    refine List.takeWhile_eq_self_iff.2 fun c hc => decide_eq_true ?_
    rintro rfl
    obtain hc | hc := List.mem_append.1 hc
    · exact (hpath _ hc).2 rfl
    · obtain hmark | hc := List.mem_cons.1 hc
      · exact absurd hmark (by decide)
      · exact hquery hc
  have hall : ∀ c ∈ path, decide (c ≠ '?') = true := fun c hc => decide_eq_true (hpath c hc).1
  constructor
  · rw [Request.path, hvisible, List.takeWhile_append_of_pos hall]
    exact List.append_nil path
  · rw [Request.query, hvisible, List.dropWhile_append_of_pos hall]
    rfl

theorem Request.path_of_pageTarget {request : Request} {start : Nat}
    (h : request.target = pageTarget size start) :
    request.path = "/admin/projects".toList ∧ request.query = pageQuery size start := by
  apply path_of_target
  · rw [h, pageTarget, withQuery, String.toList_ofList]
  · intro c hc
    constructor <;> rintro rfl <;> exact absurd hc (by decide)
  · rw [pageQuery, List.mem_append, List.mem_cons, mem_numberPart (by decide),
      mem_numberPart (by decide)]
    decide

end Http

namespace Service

open Http

variable {options : Options} {supply : Supply} {request : Request} {p : ServiceState} {start : Nat}

theorem routed?_pageTarget (hmethod : request.method = "GET")
    (htarget : request.target = pageTarget size start) :
    routed? options request = some .listProjects := by
  rw [routed?_eq_some, hmethod, (Request.path_of_pageTarget htarget).1]
  refine ⟨"/admin/projects", ?_⟩
  rw [routes]
  split <;> rfl

theorem listProjects_pageTarget (htarget : request.target = pageTarget size start)
    (hsize : size ≤ greatestPageNumber) (hstart : start ≤ greatestPageNumber) :
    listProjects options request.query = respond (Admin.listProjects start size) := by
  have hsizeValue : queryNatural? greatestPageNumber "page_size"
      (queryPairs (pageQuery size start)) = some (some size) := by
    rw [queryPairs_pageQuery]
    show (Text.natural? greatestPageNumber (String.ofList (Text.decimal size)).toList).map some = _
    rw [String.toList_ofList, natural?_decimal hsize, Option.map_some]
  have hstartValue : queryNatural? greatestPageNumber "page_start"
      (queryPairs (pageQuery size start)) = some (some start) := by
    rw [queryPairs_pageQuery]
    show (Text.natural? greatestPageNumber (String.ofList (Text.decimal start)).toList).map some = _
    rw [String.toList_ofList, natural?_decimal hstart, Option.map_some]
  rw [listProjects, (Request.path_of_pageTarget htarget).2, hsizeValue, hstartValue]
  rfl

/-- A request for a page is answered with the page, and changes nothing. -/
theorem answer_page (hmethod : request.method = "GET")
    (htarget : request.target = pageTarget size start) (hsize : size ≤ greatestPageNumber)
    (hstart : start ≤ greatestPageNumber) (hworks : p.faults.lookup .listProjects = none) :
    ∃ p', answer options supply request p
        = (.ofJson 200 (.array ((p.store.listProjects start size).map Project.toJson)), p') ∧
      p'.store = p.store := by
  have hrouted : routed? options request = some .listProjects :=
    routed?_pageTarget hmethod htarget
  obtain ⟨counters, hanswer⟩ := answer_of_routed supply p hrouted (by decide)
  have hbody : performWithin options request .listProjects
      = respond (Admin.listProjects start size) := by
    rw [performWithin_eq (fun hreads => by cases hreads)]
    exact listProjects_pageTarget htarget hsize hstart
  have hcall : p.call supply (.listProjects start size)
      = (.ok (p.store.listProjects start size), p.after p.store) := by
    have hfault : p.faults.lookup (Store.Request.listProjects start size).method = none := hworks
    rw [ServiceState.call, hfault]
    rfl
  have hrun : (Admin.listProjects start size).run supply p
      = (.ok (.ofJson 200 (.array ((p.store.listProjects start size).map Project.toJson))),
          p.after p.store) := by
    rw [Action.run_store_ok (Admin.listProjects start size) rfl hcall]
    rfl
  have htrimmed : ∀ response, trimmed request response = response := by
    intro response
    rw [trimmed, hmethod, if_neg (by decide)]
  rw [hanswer, htrimmed, hbody, respond, Program.run_map, hrun]
  exact ⟨_, rfl, rfl⟩

end Service

namespace Store

/-- Up to the first empty page, no page starts beyond the projects by as much as its size. -/
theorem FirstEmpty.start_lt {count number : Nat} (h : s.FirstEmpty size count) (hsize : 1 ≤ size)
    (hnumber : number ≤ count) : number * size < s.projects.size + size := by
  cases number with
  | zero => omega
  | succ number =>
    have hbefore := mt (page_eq_nil hsize).2 (h.2 number hnumber)
    rw [Nat.succ_mul]
    omega

/-- **Paging loses and repeats nothing**: in every reachable store, and so after every session,
there is a first empty page, the pages before it list each project once, in the order of the UTF-8
bytes of the names, and all of them but the last one are full.  A page is empty if it starts at or
past the end, or if its size is zero.  As long as the number of projects and the size of a page are
together below 2^32, these pages are what requests for them are answered with. -/
theorem projects_paged :
    (∀ s : Store, s.Reachable → ∀ size, 1 ≤ size →
      s.FirstEmpty size (s.pageCount size) ∧
      ∀ count, s.FirstEmpty size count →
        (((List.range count).flatMap (s.page size)).map Project.name).Pairwise
          (fun a b => Text.utf8 a < Text.utf8 b) ∧
        (∀ project, project ∈ (List.range count).flatMap (s.page size) ↔
          s.projects.get? project.name = some project) ∧
        (∀ name, (((List.range count).flatMap (s.page size)).map Project.name).count name
          = if s.projects.contains name then 1 else 0) ∧
        (∀ number, number + 1 < count → (s.page size number).length = size) ∧
        ∀ (options : Service.Options) (supply : Supply) (p : ServiceState) (request : Http.Request)
          (number : Nat), p.store = s → p.faults.lookup .listProjects = none →
          s.projects.size + size < 2 ^ 32 → number ≤ count → request.method = "GET" →
          request.target = Http.pageTarget size (number * size) →
          ∃ p', Service.answer options supply request p
              = (.ofJson 200 (.array ((s.page size number).map Project.toJson)), p') ∧
            p'.store = s) ∧
    (∀ (s : Store) (offset limit : Nat),
      s.listProjects offset limit = [] ↔ s.projects.size ≤ offset ∨ limit = 0) ∧
    ∀ (options : Service.Options) (supply : Supply) (events : List Event),
      (Session.run options supply events).store.Reachable := by
  refine ⟨fun s hs size hsize => ⟨(firstEmpty_iff hsize).2 rfl, fun count hcount => ?_⟩,
    fun s offset limit => listProjects_eq_nil, Session.reachable_run⟩
  rw [hcount.flatMap_page hsize]
  refine ⟨hs.byName.ascending, fun project => hs.byName.mem_values, hs.byName.count_name,
    fun number hnumber => hcount.length_page hsize hnumber, ?_⟩
  rintro options supply p request number rfl hworks hbound hnumber hmethod htarget
  have hstart := hcount.start_lt hsize hnumber
  have hgreatest : Service.greatestPageNumber = 2 ^ 32 - 1 := rfl
  exact Service.answer_page hmethod htarget (by omega) (by omega) hworks

/-- Three projects that are not created in the order of their names, and one of them deleted. -/
theorem projects_paged_deleted :
    let create (name : String) (p : ServiceState) : ServiceState :=
      ((Command.createProject name).program.run Supply.counting p).2
    let created : ServiceState := create "é" (create "a" (create "z" .fresh))
    let p : ServiceState := ((Command.deleteProject "a").program.run Supply.counting created).2
    p.store.FirstEmpty 1 2 ∧
      (((List.range 2).flatMap (p.store.page 1)).map Project.name).Pairwise
        (fun a b => Text.utf8 a < Text.utf8 b) ∧
      ((List.range 2).flatMap (p.store.page 1)).map Project.name = ["z", "é"] ∧
      ∃ p', Service.answer ⟨10, true⟩ Supply.counting
          ⟨"GET", Http.pageTarget 1 (1 * 1), [], []⟩ p
        = (.ofJson 200 (.array ((p.store.page 1 1).map Project.toJson)), p') := by
  intro create created p
  have hreachable : p.store.Reachable :=
    Program.reachable_run _ (Program.reachable_run _ (Program.reachable_run _
      (Program.reachable_run _ .empty)))
  have hfaults : p.faults = [] :=
    (Program.run_faults _ _ _).trans ((Program.run_faults _ _ _).trans
      ((Program.run_faults _ _ _).trans (Program.run_faults _ _ _)))
  have hworks : p.faults.lookup .listProjects = none := by rw [hfaults, List.lookup_nil]
  obtain ⟨hempty, hpages⟩ := projects_paged.1 p.store hreachable 1 (by decide)
  have hcount : p.store.pageCount 1 = 2 := by decide +kernel
  rw [hcount] at hempty
  obtain ⟨hordered, -, -, -, hanswers⟩ := hpages 2 hempty
  obtain ⟨p', hanswer, -⟩ := hanswers ⟨10, true⟩ Supply.counting p
    ⟨"GET", Http.pageTarget 1 (1 * 1), [], []⟩ 1 rfl hworks (by decide +kernel)
      (by decide) rfl rfl
  exact ⟨hempty, hordered, by decide +kernel, p', hanswer⟩

end Store

end FeatureFlags
