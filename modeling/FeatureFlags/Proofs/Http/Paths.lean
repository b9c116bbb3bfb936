import Mathlib.Data.List.Basic
import Mathlib.Data.List.TakeWhile
import FeatureFlags.Proofs.Answering

/-!
Paths, and where they lead.

A name of any characters can be sent as one segment of a path if at least the percent sign, the
slash, the question mark and the number sign are percent-encoded; what is kept besides makes no
difference (`Http.percentDecode?_percentEncode`).  Which route a path takes is decided by its first
segment and by the number of segments: a path of the administration takes a route of the
administration (`Operation.administers_of_find`), and a path whose first segment is no fixed one
leads to the evaluation of flags.
-/

namespace FeatureFlags

namespace Http

/-! ### Percent-encoding -/

/-- The hexadecimal digit of a value. -/
def hexDigit (n : Nat) : Char := Char.ofNat (if n < 10 then 48 + n else 55 + n)

/-- A byte as a percent sign and two digits. -/
def encodeByte (b : UInt8) : List Char := ['%', hexDigit (b.toNat / 16), hexDigit (b.toNat % 16)]

/-- A text in which all characters but those that are kept are percent-encoded. -/
def percentEncode (keep : Char → Bool) (text : List Char) : List Char :=
  text.flatMap fun c => if keep c then [c] else (String.utf8EncodeChar c).flatMap encodeByte

theorem hexValue?_hexDigit {n : Nat} (h : n < 16) : hexValue? (hexDigit n) = some n := by
  have hall : ∀ n : Fin 16, hexValue? (hexDigit n) = some n.val := by decide
  exact hall ⟨n, h⟩

theorem percentBytes_encodeByte (b : UInt8) (rest : List Char) :
    percentBytes (encodeByte b ++ rest) = b :: percentBytes rest := by
  have hb : b.toNat < 256 := b.toNat_lt
  have hhigh : hexValue? (hexDigit (b.toNat / 16)) = some (b.toNat / 16) :=
    hexValue?_hexDigit (by omega)
  have hlow : hexValue? (hexDigit (b.toNat % 16)) = some (b.toNat % 16) :=
    hexValue?_hexDigit (by omega)
  have hbyte : (b.toNat / 16 * 16 + b.toNat % 16).toUInt8 = b := by
    rw [Nat.div_add_mod']
    exact UInt8.ofNat_toNat
  rw [encodeByte, List.cons_append, List.cons_append, List.cons_append, List.nil_append,
    percentBytes, hhigh, hlow]
  simp only [hbyte]

theorem percentBytes_flatMap_encodeByte (bytes : List UInt8) (rest : List Char) :
    percentBytes (bytes.flatMap encodeByte ++ rest) = bytes ++ percentBytes rest := by
  induction bytes with
  | nil => rfl
  | cons b bytes ih =>
    rw [List.flatMap_cons, List.append_assoc, percentBytes_encodeByte, ih, List.cons_append]

theorem percentBytes_cons {c : Char} (h : c ≠ '%') (rest : List Char) :
    percentBytes (c :: rest) = String.utf8EncodeChar c ++ percentBytes rest := by
  rw [percentBytes]
  rintro a b rest' rfl
  exact absurd rfl h

theorem percentBytes_percentEncode {keep : Char → Bool} (h : keep '%' = false)
    (text : List Char) :
    percentBytes (percentEncode keep text) = text.flatMap String.utf8EncodeChar := by
  induction text with
  | nil => rfl
  | cons c text ih =>
    rw [percentEncode, List.flatMap_cons, List.flatMap_cons, ← ih]
    split
    case isTrue hc =>
      have hne : c ≠ '%' := by
        rintro rfl
        rw [h] at hc
        cases hc
      exact percentBytes_cons hne _
    case isFalse => exact percentBytes_flatMap_encodeByte _ _

theorem decodeUtf8?_utf8 (text : List Char) :
    StringPiece.decodeUtf8? (text.flatMap String.utf8EncodeChar) = some (String.ofList text) := by
  have hbytes : (⟨(text.flatMap String.utf8EncodeChar).toArray⟩ : ByteArray)
      = (String.ofList text).toByteArray := by
    rw [String.toByteArray_ofList, ← List.data_toByteArray]
    rfl
  rw [StringPiece.decodeUtf8?, hbytes, String.fromUTF8?, dif_pos (String.ofList text).isValidUTF8]
  rfl

/-- Whatever else is kept, a text is read back if its percent signs are encoded. -/
theorem percentDecode?_percentEncode {keep : Char → Bool} (h : keep '%' = false) (name : String) :
    percentDecode? (percentEncode keep name.toList) = some name := by
  rw [percentDecode?, percentBytes_percentEncode h, decodeUtf8?_utf8, String.ofList_toList]

/-! ### Segments -/

/-- A text that stands for a name as one segment of a path. -/
structure Spells (segment name : String) : Prop where
  plain : ∀ c ∈ segment.toList, c ≠ '/' ∧ c ≠ '?' ∧ c ≠ '#'
  decodes : percentDecode? segment.toList = some name

theorem hexDigit_plain {n : Nat} (h : n < 16) :
    hexDigit n ≠ '/' ∧ hexDigit n ≠ '?' ∧ hexDigit n ≠ '#' := by
  have hall : ∀ n : Fin 16, hexDigit n ≠ '/' ∧ hexDigit n ≠ '?' ∧ hexDigit n ≠ '#' := by decide
  exact hall ⟨n, h⟩

/-- Every name can be spelled, in as many ways as there are characters to be kept. -/
theorem spells_percentEncode {keep : Char → Bool}
    (h : ∀ c ∈ ['%', '/', '?', '#'], keep c = false) (name : String) :
    Spells (String.ofList (percentEncode keep name.toList)) name where
  plain := by
    intro c hc
    rw [String.toList_ofList, percentEncode, List.mem_flatMap] at hc
    obtain ⟨d, -, hc⟩ := hc
    split at hc
    case isTrue hkept =>
      obtain rfl := List.mem_singleton.1 hc
      refine ⟨?_, ?_, ?_⟩ <;>
      · rintro rfl
        rw [h _ (by decide)] at hkept
        cases hkept
    case isFalse =>
      obtain ⟨b, -, hc⟩ := List.mem_flatMap.1 hc
      have hb : b.toNat < 256 := b.toNat_lt
      rw [encodeByte, List.mem_cons, List.mem_cons, List.mem_singleton] at hc
      obtain rfl | rfl | rfl := hc
      · decide
      · exact hexDigit_plain (by omega)
      · exact hexDigit_plain (by omega)
  decodes := by rw [String.toList_ofList, percentDecode?_percentEncode (h _ (by decide))]

/-- A text without the signs that mean something in a path spells itself. -/
theorem spells_self {name : String}
    (h : ∀ c ∈ name.toList, c ∉ ['%', '/', '?', '#']) : Spells name name := by
  let keep : Char → Bool := fun c => decide (c ∉ ['%', '/', '?', '#'])
  have hsigns : ∀ c ∈ ['%', '/', '?', '#'], keep c = false := by simp [keep]
  have hkept : percentEncode keep name.toList = name.toList := by
    have hsingle : ∀ c ∈ name.toList, (if keep c then [c]
        else (String.utf8EncodeChar c).flatMap encodeByte) = [c] :=
      fun c hc => if_pos (decide_eq_true (h c hc))
    rw [percentEncode, List.flatMap_congr hsingle, List.flatMap_singleton']
  have hspells := spells_percentEncode hsigns name
  rwa [hkept, String.ofList_toList] at hspells

theorem Spells.segment_ne {segment name : String} (h : Spells segment name) (hname : name ≠ "") :
    segment.toList ≠ [] := by
  intro hempty
  have hdecodes := h.decodes
  rw [hempty] at hdecodes
  exact hname (Option.some.inj hdecodes).symm

theorem splitOn_of_notMem {separator : Char} {part : List Char} (h : separator ∉ part) :
    splitOn separator part = [part] := by
  induction part with
  | nil => rfl
  | cons c part ih =>
    obtain ⟨hc, hpart⟩ := not_or.1 (mt List.mem_cons.2 h)
    rw [splitOn, if_neg (Ne.symm hc), ih hpart]

theorem splitOn_append_cons {separator : Char} {part : List Char} (h : separator ∉ part)
    (rest : List Char) :
    splitOn separator (part ++ separator :: rest) = part :: splitOn separator rest := by
  induction part with
  | nil => rw [List.nil_append, splitOn, if_pos rfl]
  | cons c part ih =>
    obtain ⟨hc, hpart⟩ := not_or.1 (mt List.mem_cons.2 h)
    rw [List.cons_append, splitOn, if_neg (Ne.symm hc), ih hpart]

theorem splitOn_ne_nil (separator : Char) (text : List Char) : splitOn separator text ≠ [] := by
  cases text with
  | nil => nofun
  | cons c rest =>
    rw [splitOn]
    split
    · nofun
    · split <;> nofun

theorem Request.path_of_plain {request : Request}
    (h : ∀ c ∈ request.target.toList, c ≠ '?' ∧ c ≠ '#') :
    request.path = request.target.toList := by
  have hvisible : request.visibleTarget = request.target.toList :=
    List.takeWhile_eq_self_iff.2 fun c hc => decide_eq_true (h c hc).2
  rw [Request.path, hvisible]
  exact List.takeWhile_eq_self_iff.2 fun c hc => decide_eq_true (h c hc).1

/-! ### Routes -/

variable {α : Type} {segments arguments : List (List Char)} {table : List (Route α)}
  {route : Route α}

/-- A pattern matches as many segments as it has. -/
theorem Segment.length_of_arguments? {pattern : List Segment}
    (h : arguments? pattern segments = some arguments) : pattern.length = segments.length := by
  fun_induction arguments? pattern segments generalizing arguments with
  | case1 => rfl
  | case2 | case3 => rfl
  | case4 text pattern rest ih => rw [List.length_cons, List.length_cons, ih h]
  | case5 => cases h
  | case6 name pattern segment rest hnot ih =>
    obtain ⟨others, hothers, -⟩ := Option.map_eq_some_iff.1 h
    rw [List.length_cons, List.length_cons, ih hothers]
  | case7 => cases h

/-- The route that is found matches. -/
theorem arguments?_of_findRoute? (h : findRoute? segments table = some (route, arguments)) :
    Segment.arguments? route.pattern segments = some arguments := by
  induction table with
  | nil => cases h
  | cons first rest ih =>
    rw [findRoute?] at h
    cases hfirst : Segment.arguments? first.pattern segments with
    | none =>
      rw [hfirst] at h
      exact ih h
    | some found =>
      rw [hfirst] at h
      obtain ⟨rfl, rfl⟩ := Prod.mk.inj (Option.some.inj h)
      exact hfirst

/-- Routes that do not match can be left out. -/
theorem findRoute?_filter {keep : Route α → Bool}
    (h : ∀ route ∈ table, keep route = false → Segment.arguments? route.pattern segments = none) :
    findRoute? segments (table.filter keep) = findRoute? segments table := by
  induction table with
  | nil => rfl
  | cons first rest ih =>
    obtain ⟨hfirst, hrest⟩ := List.forall_mem_cons.1 h
    cases hkeep : keep first with
    | true => rw [List.filter_cons_of_pos hkeep, findRoute?, findRoute?, ih hrest]
    | false =>
      rw [List.filter_cons_of_neg (by simp [hkeep]), ih hrest, findRoute?, hfirst hkeep]

end Http

/-! ### Routes of the service -/

namespace Operation

open Http

/-- The operations that the administration may ask for. -/
def administers : Operation → Bool
  | index | health | readiness | samples | getRules _ | evaluateFlags _ | evaluateFlag .. => false
  | _ => true

/-- The first segments that lead elsewhere than to the flags of an environment. -/
def fixedSegments : List String := ["metrics", "", "health_check", "_readiness", "admin"]

/-- The text that the pattern of a route starts with, if it does not start with a parameter. -/
def fixedStart? (route : Route Methods) : Option String :=
  match route.pattern with
  | .literal text :: _ => some text
  | _ => none

/-- The routes that start with a parameter. -/
def freeRoutes : List (Route Methods) := routes.filter fun route => (fixedStart? route).isNone

theorem fixedStart?_mem : ∀ route ∈ samplesRoute :: routes, ∀ text ∈ fixedStart? route,
    text ∈ fixedSegments := by
  decide

theorem arguments?_of_fixedStart? {route : Route Methods} {text : String} {first : List Char}
    (h : fixedStart? route = some text) (hne : text.toList ≠ first) (rest : List (List Char)) :
    Segment.arguments? route.pattern (first :: rest) = none := by
  obtain ⟨pattern, target⟩ := route
  match pattern, h with
  | .literal _ :: _, rfl => exact if_neg hne

/-- A path whose first segment is no fixed one takes a route that starts with a parameter. -/
theorem findRoute?_free (options : Service.Options) {first : List Char}
    (h : ∀ text ∈ fixedSegments, text.toList ≠ first) (rest : List (List Char)) :
    findRoute? (first :: rest) (Service.routes options)
      = findRoute? (first :: rest) freeRoutes := by
  have hfiltered : (Service.routes options).filter (fun route => (fixedStart? route).isNone)
      = freeRoutes := by
    rw [Service.routes]
    split <;> rfl
  rw [← hfiltered, findRoute?_filter]
  intro route hroute hfixed
  cases hstart : fixedStart? route with
  | none => simp [hstart] at hfixed
  | some text =>
    have hmem := fixedStart?_mem route (Service.mem_of_mem_routes hroute) text hstart
    exact arguments?_of_fixedStart? hstart (h text hmem) rest

/-! ### Routes of the administration -/

/-- Longer paths belong to the administration. -/
theorem fixedStart?_of_long : ∀ route ∈ samplesRoute :: routes, 3 ≤ route.pattern.length →
    fixedStart? route = some "admin" := by
  decide

/-- Of the routes with two segments, those of the administration come first. -/
theorem fixedStart?_of_two {options : Service.Options} {second : List Char}
    {arguments : List (List Char)} {route : Route Methods}
    (h : findRoute? ["admin".toList, second] (Service.routes options) = some (route, arguments)) :
    fixedStart? route = some "admin" := by
  -- the order of the table decides only among the routes that have two segments
  have hfiltered : (Service.routes options).filter (fun route => route.pattern.length = 2)
      = routes.filter fun route => route.pattern.length = 2 := by
    rw [Service.routes]
    split <;> rfl
  have hfound : findRoute? ["admin".toList, second]
      ((Service.routes options).filter fun route => route.pattern.length = 2)
      = some (route, arguments) := by
    rw [findRoute?_filter, h]
    intro route _ hlength
    cases harguments : Segment.arguments? route.pattern ["admin".toList, second] with
    | none => rfl
    | some found => simp [Segment.length_of_arguments? harguments] at hlength
  rw [hfiltered] at hfound
  by_cases hempty : second = []
  · subst hempty
    cases hfound
  obtain ⟨projects, environment, rest, hroutes, hprojects, henvironment⟩ :
      ∃ projects environment rest,
        routes.filter (fun route => route.pattern.length = 2) = projects :: environment :: rest ∧
        projects.pattern = [.literal "admin", .literal "projects"] ∧
        environment.pattern = [.literal "admin", .parameter "environment_id"] :=
    ⟨_, _, _, rfl, rfl, rfl⟩
  have hfixed : Segment.arguments? projects.pattern ["admin".toList, second]
      = if "projects".toList = second then some [] else none := by
    rw [hprojects]
    rfl
  have hfree : Segment.arguments? environment.pattern ["admin".toList, second] = some [second] := by
    rw [henvironment]
    exact if_neg (mt List.isEmpty_iff.1 hempty)
  rw [hroutes, findRoute?, hfixed] at hfound
  by_cases hsecond : "projects".toList = second
  · rw [if_pos hsecond] at hfound
    obtain ⟨rfl, -⟩ := Prod.mk.inj (Option.some.inj hfound)
    rw [fixedStart?, hprojects]
  · rw [if_neg hsecond, findRoute?, hfree] at hfound
    obtain ⟨rfl, -⟩ := Prod.mk.inj (Option.some.inj hfound)
    rw [fixedStart?, henvironment]

/-- A path of the administration takes a route of the administration. -/
theorem fixedStart?_of_admin {options : Service.Options} {rest arguments : List (List Char)}
    {route : Route Methods} (hrest : rest ≠ [])
    (h : findRoute? ("admin".toList :: rest) (Service.routes options) = some (route, arguments)) :
    fixedStart? route = some "admin" := by
  match rest, hrest with
  | [second], _ => exact fixedStart?_of_two h
  | second :: third :: others, _ =>
    have hlength := Segment.length_of_arguments? (arguments?_of_findRoute? h)
    have hmem := Service.mem_of_mem_routes (Service.mem_of_findRoute? h)
    refine fixedStart?_of_long route hmem ?_
    rw [hlength, List.length_cons, List.length_cons, List.length_cons]
    omega

/-- The routes of the administration lead to its operations. -/
theorem leadsTo_administers : ∀ route ∈ samplesRoute :: routes,
    fixedStart? route = some "admin" →
      ∀ method ∈ route.target, LeadsTo (administers · = true) method := by
  intro route hroute hadmin
  simp only [routes, List.mem_cons, List.not_mem_nil, or_false] at hroute
  rcases hroute with rfl | rfl | rfl | rfl | rfl | rfl | rfl | rfl | rfl | rfl | rfl | rfl | rfl |
    rfl | rfl | rfl | rfl | rfl
  all_goals first
    | exact absurd hadmin (by decide)
    | repeat' first
      | exact leadsTo_plain _ rfl
      | exact leadsTo_withOne _ fun _ => rfl
      | exact leadsTo_withTwo _ fun _ _ => rfl
      | exact List.forall_mem_nil _
      | refine List.forall_mem_cons.2 ⟨?_, ?_⟩

/-- What a path of the administration leads to is an operation of the administration. -/
theorem administers_of_find {options : Service.Options} {method template : String}
    {path : List Char} {operation : Operation}
    (h : find (Service.routes options) method path = .operation template operation)
    (hadmin : "/admin/".toList <+: path) : administers operation = true := by
  obtain ⟨tail, rfl⟩ := hadmin
  have hslash : '/' ∉ "admin".toList := by decide
  have hsegments : pathSegments? ("/admin/".toList ++ tail)
      = some ("admin".toList :: splitOn '/' tail) :=
    congrArg some (splitOn_append_cons hslash tail)
  obtain ⟨segments, route, arguments, build, decoded, hsome, hroute, hbuild, -, hmade, -⟩ :=
    Service.find_eq_operation.1 h
  obtain rfl := Option.some.inj (hsegments.symm.trans hsome)
  have hmem := Service.mem_of_mem_routes (Service.mem_of_findRoute? hroute)
  have hfixed := fixedStart?_of_admin (splitOn_ne_nil '/' tail) hroute
  obtain ⟨front, back, htarget, -⟩ := List.lookup_eq_some_iff.1 hbuild
  have hmethod : (if method = "HEAD" then "GET" else method, build) ∈ route.target := by
    rw [htarget]
    exact List.mem_append_cons_self
  exact leadsTo_administers route hmem hfixed _ hmethod decoded operation hmade

/-! ### Routes of the evaluation -/

/-- One segment leads to the evaluation of all flags of the environment that it spells. -/
theorem find_evaluateFlags (options : Service.Options) {segment id : String}
    (hfree : ∀ text ∈ fixedSegments, text.toList ≠ segment.toList) (hid : Spells segment id) :
    ∃ template, find (Service.routes options) "POST" ("/" ++ segment).toList
      = .operation template (.evaluateFlags id) := by
  have hne : ¬ segment.toList.isEmpty = true := by
    rw [List.isEmpty_iff]
    exact fun hempty => hfree "" (by decide) hempty.symm
  have hsegments : pathSegments? ("/" ++ segment).toList = some [segment.toList] := by
    rw [String.toList_append]
    exact congrArg some (splitOn_of_notMem fun hmem => (hid.plain _ hmem).1 rfl)
  have hroute : findRoute? [segment.toList] (Service.routes options)
      = some (⟨[.parameter "environment_id"], [withOne "POST" evaluateFlags]⟩,
          [segment.toList]) := by
    rw [findRoute?_free options hfree]
    show findRoute? _ (⟨[.parameter "environment_id"], [withOne "POST" evaluateFlags]⟩ :: _) = _
    rw [findRoute?, Segment.arguments?, if_neg hne]
  have hdecoded : [segment.toList].mapM percentDecode? = some [id] := by simp [hid.decodes]
  exact ⟨_, Service.find_eq_operation.2 ⟨_, _, _, _, _, hsegments, hroute, rfl, hdecoded, rfl, rfl⟩⟩

/-- Two segments lead to the evaluation of one flag, be the second that of the rules or another. -/
theorem find_evaluateFlag (options : Service.Options) {first second id name : String}
    (hfree : ∀ text ∈ fixedSegments, text.toList ≠ first.toList) (hid : Spells first id)
    (hname : Spells second name) (hne : name ≠ "") :
    ∃ template, find (Service.routes options) "POST" ("/" ++ first ++ "/" ++ second).toList
      = .operation template (.evaluateFlag id name) := by
  have hsegments : pathSegments? ("/" ++ first ++ "/" ++ second).toList
      = some [first.toList, second.toList] := by
    rw [String.append_assoc, String.append_assoc, String.toList_append, String.toList_append,
      String.toList_append]
    have hfirst : '/' ∉ first.toList := fun hmem => (hid.plain _ hmem).1 rfl
    have hsecond : '/' ∉ second.toList := fun hmem => (hname.plain _ hmem).1 rfl
    exact congrArg some ((splitOn_append_cons hfirst second.toList).trans
      (by rw [splitOn_of_notMem hsecond]))
  have hfound := findRoute?_free options hfree [second.toList]
  -- a flag under the name of the segment of the rules takes their route, if it is sent as it is,
  -- and that of the flags, if it is sent in another spelling
  by_cases hrules : rulesSegment.toList = second.toList
  · have hroute : findRoute? [first.toList, second.toList] (Service.routes options)
        = some (⟨[.parameter "environment_id", .literal rulesSegment],
            [withOne "GET" getRules, withOne "POST" (evaluateFlag · rulesSegment)]⟩,
            [first.toList]) := by
      rw [hfound, ← hrules]
      rfl
    have hrulesSegment : percentDecode? second.toList = some rulesSegment := by
      rw [← hrules]
      decide
    obtain rfl : name = rulesSegment := Option.some.inj (hname.decodes.symm.trans hrulesSegment)
    have hdecoded : [first.toList].mapM percentDecode? = some [id] := by simp [hid.decodes]
    exact ⟨_, Service.find_eq_operation.2
      ⟨_, _, _, _, _, hsegments, hroute, rfl, hdecoded, rfl, rfl⟩⟩
  · have hroute : findRoute? [first.toList, second.toList] (Service.routes options)
        = some (⟨[.parameter "environment_id", .parameter "flag_name"],
            [withTwo "POST" evaluateFlag]⟩, [first.toList, second.toList]) := by
      have hempty : ¬ second.toList.isEmpty = true := by
        rw [List.isEmpty_iff]
        exact hname.segment_ne hne
      rw [hfound]
      simp [freeRoutes, routes, fixedStart?, findRoute?, Segment.arguments?, hrules, hempty]
    have hdecoded : [first.toList, second.toList].mapM percentDecode? = some [id, name] := by
      simp [hid.decodes, hname.decodes]
    exact ⟨_, Service.find_eq_operation.2
      ⟨_, _, _, _, _, hsegments, hroute, rfl, hdecoded, rfl, rfl⟩⟩

end Operation

end FeatureFlags
