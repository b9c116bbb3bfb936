import Mathlib.Data.List.Induction
import Mathlib.Data.Nat.Digits.Defs
import FeatureFlags.Proofs.Json.Entries
import FeatureFlags.Proofs.Rule.Context

/-!
Paths are looked up segment by segment.

The segments of a path are the texts between its dots, and of two paths with a dot between them
they are those of the first and then those of the second (`Json.segments_append_dot`).  So a look-up
along both goes on where the one along the first has come to (`Json.lookup_append_dot`).  What one
segment leads to is said by a relation (`Json.StepsTo`), in which an index is an integer of any
size; in an array that a machine can hold, indices computed in words of 64 bits lead to the same
items (`Word.item?_index?`).  The first segment that leads nowhere is the one that the error names.
-/

namespace FeatureFlags

namespace LookupError

/-- The segment that could not be resolved. -/
def segment : LookupError → String
  | .keyNotFound key => key
  | .indexOutOfRange index => index
  | .unresolvable segment _ => segment

/-- The message puts the segment first. -/
theorem message_eq (e : LookupError) :
    ∃ reason, e.message = "Invalid context: key '" ++ e.segment ++ reason := by
  cases e with
  | keyNotFound key =>
    refine ⟨"' not found", ?_⟩
    delta message segment
    rfl
  | indexOutOfRange index =>
    refine ⟨"': list index out of range", ?_⟩
    delta message segment
    rfl
  | unresolvable segment kind =>
    refine ⟨"' cannot be resolved on a " ++ kind.name, ?_⟩
    delta message LookupError.segment
    dsimp only
    rw [← String.append_assoc]

end LookupError

/-! ### Digits -/

namespace Text

variable {digits : List Char}

/-- The digit that a character shows. -/
def digitValue (c : Char) : Nat := c.toNat - '0'.toNat

/-- The sum of the digits, each times the power of ten of its place. -/
def placeValue (digits : List Char) : Nat := Nat.ofDigits 10 (digits.reverse.map digitValue)

theorem digitsValue_concat (digits : List Char) (c : Char) :
    digitsValue (digits ++ [c]) = 10 * digitsValue digits + digitValue c := by
  rw [digitsValue, List.foldl_append]
  rfl

/-- Digits are read from the left, each one shifting those before it by one place. -/
theorem digitsValue_eq_placeValue (digits : List Char) :
    digitsValue digits = placeValue digits := by
  induction digits using List.reverseRecOn with
  | nil => rfl
  | append_singleton digits c ih =>
    rw [digitsValue_concat, ih, placeValue, placeValue, List.reverse_append, List.reverse_singleton,
      List.singleton_append, List.map_cons, Nat.ofDigits_cons]
    omega

/-- The minus sign is no digit. -/
theorem head?_ne_minus (hdigits : ∀ c ∈ digits, c.isDigit = true) : digits.head? ≠ some '-' := by
  intro hhead
  exact absurd (hdigits '-' (List.mem_of_mem_head? hhead)) (by decide)

theorem digitValue_lt {c : Char} (h : c.isDigit = true) : digitValue c < 10 := by
  have hdigit : '0'.toNat ≤ c.toNat ∧ c.toNat ≤ '9'.toNat := by
    simpa [Char.isDigit, UInt32.le_iff_toNat_le] using h
  have hzero : '0'.toNat = 48 := rfl
  have hnine : '9'.toNat = 57 := rfl
  unfold digitValue
  omega

end Text

namespace Json

variable {context value reached : Json} {segment : String} {text : List Char} {k : Int}

/-! ### Segments -/

theorem segments_append_dot (p q : List Char) :
    segments (p ++ '.' :: q) = segments p ++ segments q := by
  induction p with
  | nil => simp [segments]
  | cons c rest ih =>
    rw [List.cons_append, segments, segments, ih]
    split
    case isTrue => rfl
    case isFalse =>
      cases hrest : segments rest with
      | nil => exact absurd hrest (segments_ne_nil rest)
      | cons first others => rfl

theorem segments_of_no_dot (h : '.' ∉ text) : segments text = [text] := by
  induction text with
  | nil => rfl
  | cons c rest ih =>
    rw [List.mem_cons, not_or] at h
    rw [segments, if_neg (Ne.symm h.1), ih h.2]

/-- Parts without dots, joined by dots, are the segments. -/
theorem segments_intercalate {parts : List (List Char)} (hne : parts ≠ [])
    (h : ∀ part ∈ parts, '.' ∉ part) : segments (['.'].intercalate parts) = parts := by
  induction parts with
  | nil => exact absurd rfl hne
  | cons first rest ih =>
    rw [List.forall_mem_cons] at h
    cases rest with
    | nil => rw [List.intercalate_singleton, segments_of_no_dot h.1]
    | cons second rest =>
      rw [List.intercalate_cons_cons, List.append_assoc, List.singleton_append,
        segments_append_dot, segments_of_no_dot h.1, ih (List.cons_ne_nil _ _) h.2]
      rfl

theorem not_dot_mem_segments (path : List Char) : ∀ part ∈ segments path, '.' ∉ part := by
  induction path with
  | nil => simp [segments]
  | cons c rest ih =>
    rw [segments]
    split
    case isTrue => simpa using ih
    case isFalse hc =>
      cases hrest : segments rest with
      | nil => exact absurd hrest (segments_ne_nil rest)
      | cons first others =>
        rw [hrest, List.forall_mem_cons] at ih
        rw [List.forall_mem_cons, List.mem_cons, not_or]
        exact ⟨⟨Ne.symm hc, ih.1⟩, ih.2⟩

theorem intercalate_segments (path : List Char) : ['.'].intercalate (segments path) = path := by
  induction path with
  | nil => rfl
  | cons c rest ih =>
    rw [segments]
    cases hrest : segments rest with
    | nil => exact absurd hrest (segments_ne_nil rest)
    | cons first others =>
      rw [hrest] at ih
      split
      case isTrue hc => rw [List.intercalate_cons_cons, ih, hc]; rfl
      case isFalse =>
        conv_rhs => rw [← ih]
        cases others with
        | nil => rw [List.intercalate_singleton, List.intercalate_singleton]
        | cons second others => rw [List.intercalate_cons_cons, List.intercalate_cons_cons]; rfl

/-! ### Composition -/

theorem walk_append (value : Json) (front back : List (List Char)) :
    value.walk (front ++ back) = (value.walk front).bind fun next => next.walk back := by
  induction front generalizing value with
  | nil => rfl
  | cons segment front ih =>
    rw [List.cons_append, walk_cons, walk_cons]
    cases value.step (String.ofList segment) with
    | error e => rfl
    | ok next => exact ih next

theorem lookup_append_dot (context : Json) (p q : String) :
    context.lookup (p ++ "." ++ q) = (context.lookup p).bind fun found => found.lookup q := by
  have hsegments : segments (p ++ "." ++ q).toList = segments p.toList ++ segments q.toList := by
    rw [String.toList_append, String.toList_append, List.append_assoc]
    exact segments_append_dot p.toList q.toList
  rw [lookup, hsegments, walk_append]
  rfl

/-- A path without dots is one step. -/
theorem lookup_of_no_dot (context : Json) (h : '.' ∉ segment.toList) :
    context.lookup segment = context.step segment := by
  rw [lookup, segments_of_no_dot h, walk_cons, String.ofList_toList]
  cases context.step segment <;> rfl

/-! ### Indices -/

/-- The text shows an integer: ASCII digits, with or without a minus sign in front. -/
inductive Denotes : List Char → Int → Prop where
  | plain {digits : List Char} (hne : digits ≠ []) (hdigits : ∀ c ∈ digits, c.isDigit = true) :
    Denotes digits (Text.placeValue digits)
  | negated {digits : List Char} (hne : digits ≠ []) (hdigits : ∀ c ∈ digits, c.isDigit = true) :
    Denotes ('-' :: digits) (-Text.placeValue digits)

theorem index?_of_digits (hne : text ≠ []) (hdigits : ∀ c ∈ text, c.isDigit = true) :
    index? text = some (Text.placeValue text : Int) := by
  unfold index?
  simp only [if_neg (Text.head?_ne_minus hdigits)]
  rw [if_neg (by simpa [hne] using hdigits), Text.digitsValue_eq_placeValue]

theorem index?_of_minus (hne : text ≠ []) (hdigits : ∀ c ∈ text, c.isDigit = true) :
    index? ('-' :: text) = some (-Text.placeValue text : Int) := by
  unfold index?
  simp only [List.head?_cons, List.tail_cons, if_true]
  rw [if_neg (by simpa [hne] using hdigits), Text.digitsValue_eq_placeValue]

theorem index?_eq_some_iff : index? text = some k ↔ Denotes text k := by
  constructor
  · intro h
    unfold index? at h
    by_cases hminus : text.head? = some '-'
    · obtain ⟨digits, rfl⟩ := List.head?_eq_some_iff.1 hminus
      simp only [List.head?_cons, List.tail_cons, if_true] at h
      split at h
      case isTrue => cases h
      case isFalse hnot =>
        rw [not_or, not_not, List.all_eq_true] at hnot
        rw [← Option.some.inj h, Text.digitsValue_eq_placeValue]
        exact .negated hnot.1 hnot.2
    · simp only [if_neg hminus] at h
      split at h
      case isTrue => cases h
      case isFalse hnot =>
        rw [not_or, not_not, List.all_eq_true] at hnot
        rw [← Option.some.inj h, Text.digitsValue_eq_placeValue]
        exact .plain hnot.1 hnot.2
  · intro h
    cases h with
    | plain hne hdigits => exact index?_of_digits hne hdigits
    | negated hne hdigits => exact index?_of_minus hne hdigits

theorem index?_eq_none_iff : index? text = none ↔ ∀ k, ¬Denotes text k := by
  rw [Option.eq_none_iff_forall_ne_some]
  exact forall_congr' fun k => not_congr index?_eq_some_iff

/-! ### One step -/

/-- What a segment leads to: the entry of this key, the item at this index, which counts from the
end if it is negative, or an error that names the segment. -/
inductive StepsTo : Json → String → Except LookupError Json → Prop where
  | entry {entries : List (String × Json)} {key : String} {found : Json}
    (h : entries.lookup key = some found) : StepsTo (.object entries) key (.ok found)
  | noEntry {entries : List (String × Json)} {key : String} (h : key ∉ keys entries) :
    StepsTo (.object entries) key (.error (.keyNotFound key))
  | fromStart {items : List Json} {segment : String} {k : Int} {found : Json}
    (hk : Denotes segment.toList k) (hstart : 0 ≤ k) (h : items[k.toNat]? = some found) :
    StepsTo (.array items) segment (.ok found)
  | fromEnd {items : List Json} {segment : String} {k : Int} {found : Json}
    (hk : Denotes segment.toList k) (hend : k < 0) (hstart : 0 ≤ items.length + k)
    (h : items[(items.length + k).toNat]? = some found) : StepsTo (.array items) segment (.ok found)
  | outOfRange {items : List Json} {segment : String} {k : Int} (hk : Denotes segment.toList k)
    (h : k < -items.length ∨ items.length ≤ k) :
    StepsTo (.array items) segment (.error (.indexOutOfRange segment))
  | noIndex {items : List Json} {segment : String} (h : ∀ k, ¬Denotes segment.toList k) :
    StepsTo (.array items) segment (.error (.unresolvable segment .array))
  | noParts {value : Json} {segment : String} (hobject : value.kind ≠ .object)
    (harray : value.kind ≠ .array) :
    StepsTo value segment (.error (.unresolvable segment value.kind))

theorem item?_of_nonneg (items : List Json) (h : 0 ≤ k) : item? items k = items[k.toNat]? :=
  if_pos h

theorem item?_of_neg {items : List Json} (h : k < 0) (hstart : 0 ≤ items.length + k) :
    item? items k = items[(items.length + k).toNat]? := by
  rw [item?, if_neg (Int.not_le.2 h), if_neg (Int.not_lt.2 hstart)]

theorem item?_of_outOfRange {items : List Json} (h : k < -items.length ∨ items.length ≤ k) :
    item? items k = none := by
  unfold item?
  split
  case isTrue hstart =>
    apply List.getElem?_eq_none
    omega
  case isFalse hstart =>
    rw [if_pos (by omega)]

theorem StepsTo.step_eq {result : Except LookupError Json} (h : value.StepsTo segment result) :
    value.step segment = result := by
  cases h with
  | entry h => rw [step, h]
  | noEntry h => rw [step, lookup_eq_none.2 h]
  | fromStart hk hstart h =>
    rw [step, index?_eq_some_iff.2 hk]
    simp only [item?_of_nonneg _ hstart, h]
  | fromEnd hk hend hstart h =>
    rw [step, index?_eq_some_iff.2 hk]
    simp only [item?_of_neg hend hstart, h]
  | outOfRange hk h =>
    rw [step, index?_eq_some_iff.2 hk]
    simp only [item?_of_outOfRange h]
  | noIndex h => rw [step, index?_eq_none_iff.2 h]
  | noParts hobject harray =>
    cases value with
    | object => exact absurd rfl hobject
    | array => exact absurd rfl harray
    | _ => rfl

theorem exists_stepsTo (value : Json) (segment : String) :
    ∃ result, value.StepsTo segment result := by
  cases value with
  | object entries =>
    cases h : entries.lookup segment with
    | some found => exact ⟨_, .entry h⟩
    | none => exact ⟨_, .noEntry (lookup_eq_none.1 h)⟩
  | array items =>
    by_cases hindex : ∃ k, Denotes segment.toList k
    · obtain ⟨k, hk⟩ := hindex
      by_cases hrange : k < -items.length ∨ items.length ≤ k
      · exact ⟨_, .outOfRange hk hrange⟩
      · rw [not_or, Int.not_lt, Int.not_le] at hrange
        by_cases hstart : 0 ≤ k
        · exact ⟨_, .fromStart hk hstart (List.getElem?_eq_getElem (by omega))⟩
        · exact ⟨_, .fromEnd hk (by omega) (by omega) (List.getElem?_eq_getElem (by omega))⟩
    · exact ⟨_, .noIndex (not_exists.1 hindex)⟩
  | null | bool | number | string => exact ⟨_, .noParts (by simp [kind]) (by simp [kind])⟩

/-- A segment leads to one thing, which is what the step gives. -/
theorem stepsTo_iff {result : Except LookupError Json} :
    value.StepsTo segment result ↔ value.step segment = result := by
  constructor
  · exact StepsTo.step_eq
  · rintro rfl
    obtain ⟨result, h⟩ := exists_stepsTo value segment
    rwa [h.step_eq]

theorem StepsTo.segment_eq {e : LookupError} (h : value.StepsTo segment (.error e)) :
    e.segment = segment := by
  cases h <;> rfl

/-- A walk ends in an error at the first segment that leads to one. -/
theorem walk_eq_error_iff {parts : List (List Char)} {e : LookupError} :
    value.walk parts = .error e ↔
      ∃ front part back reached, parts = front ++ part :: back ∧
        value.walk front = .ok reached ∧ reached.step (String.ofList part) = .error e := by
  constructor
  · intro h
    -- the walk stops at its first step, or fails in what this step leads to
    induction parts generalizing value with
    | nil => cases h
    | cons first rest ih =>
      rw [walk_cons] at h
      cases hstep : value.step (String.ofList first) with
      | error e' =>
        rw [hstep] at h
        obtain rfl := Except.error.inj h
        exact ⟨[], first, rest, value, rfl, rfl, hstep⟩
      | ok next =>
        rw [hstep] at h
        obtain ⟨front, part, back, reached, rfl, hfront, hpart⟩ := ih h
        refine ⟨first :: front, part, back, reached, rfl, ?_, hpart⟩
        rw [walk_cons, hstep]
        exact hfront
  · rintro ⟨front, part, back, reached, rfl, hfront, hpart⟩
    rw [walk_append, hfront, Except.bind, walk_cons, hpart]
    rfl

end Json

/-! ### Indices in words -/

namespace Word

variable {text : List Char} {k : Int}

/-- An index in a word of 64 bits. -/
inductive Index where
  | fromStart (i : UInt64)
  | fromEnd (i : UInt64)
  /-- The digits show a number that is no word. -/
  | tooLarge

/-- The number with another digit, if no step overflows. -/
def appendDigit? (n : UInt64) (c : Char) : Option UInt64 :=
  let digit := UInt64.ofNat (Text.digitValue c)
  if n.toBitVec.umulOverflow (10 : UInt64).toBitVec then none
  else if (n * 10).toBitVec.uaddOverflow digit.toBitVec then none
  else some (n * 10 + digit)

/-- The number that digits show, if it is a word. -/
def natural? (digits : List Char) : Option UInt64 := digits.foldlM appendDigit? 0

/-- The index that a segment shows.  Minus zero counts from the start. -/
def index? (text : List Char) : Option Index :=
  let digits := if text.head? = some '-' then text.tail else text
  if digits = [] ∨ ¬digits.all Char.isDigit then none
  else match natural? digits with
    | none => some .tooLarge
    | some i => some (if text.head? = some '-' ∧ i ≠ 0 then .fromEnd i else .fromStart i)

/-- The item at an index. -/
def item? (items : List Json) : Index → Option Json
  | .fromStart i => items[i.toNat]?
  | .fromEnd i =>
    let length := UInt64.ofNat items.length
    if length < i then none else items[(length - i).toNat]?
  | .tooLarge => none

theorem appendDigit?_cases (n : UInt64) {c : Char} (hc : c.isDigit = true) :
    (appendDigit? n c = none ∧ 2 ^ 64 ≤ 10 * n.toNat + Text.digitValue c) ∨
    ∃ m, appendDigit? n c = some m ∧ m.toNat = 10 * n.toNat + Text.digitValue c := by
  have hlt := Text.digitValue_lt hc
  have hdigit : (UInt64.ofNat (Text.digitValue c)).toNat = Text.digitValue c :=
    UInt64.toNat_ofNat_of_lt' (show _ < 2 ^ 64 by omega)
  have hten : (10 : UInt64).toNat = 10 := rfl
  simp only [appendDigit?, BitVec.umulOverflow, BitVec.uaddOverflow, UInt64.toNat_toBitVec,
    decide_eq_true_eq, UInt64.toNat_mul, hten, hdigit]
  -- the product is checked before the sum, which is why the sum may take it for exact
  split
  case isTrue h => exact .inl ⟨rfl, by omega⟩
  case isFalse h =>
    rw [Nat.mod_eq_of_lt (by omega)]
    split
    case isTrue h' => exact .inl ⟨rfl, by omega⟩
    case isFalse h' =>
      refine .inr ⟨_, rfl, ?_⟩
      rw [UInt64.toNat_add, UInt64.toNat_mul, hten, hdigit]
      omega

/-- Digits are read as long as they show a word, whatever the number of zeros in front. -/
theorem natural?_cases (h : ∀ c ∈ text, c.isDigit = true) :
    (natural? text = none ∧ 2 ^ 64 ≤ Text.placeValue text) ∨
    ∃ n, natural? text = some n ∧ n.toNat = Text.placeValue text := by
  rw [← Text.digitsValue_eq_placeValue]
  -- from the last digit: those before it show a word or have overflowed already
  induction text using List.reverseRecOn with
  | nil => exact .inr ⟨0, rfl, rfl⟩
  | append_singleton digits c ih =>
    rw [List.forall_mem_append, List.forall_mem_singleton] at h
    rw [natural?, List.foldlM_append, ← natural?, Text.digitsValue_concat]
    obtain ⟨hnone, hlarge⟩ | ⟨n, hn, hvalue⟩ := ih h.1
    · rw [hnone]
      exact .inl ⟨rfl, by omega⟩
    · rw [hn, ← hvalue]
      simpa using appendDigit?_cases n h.2

theorem index?_of_digits (hne : text ≠ []) (h : ∀ c ∈ text, c.isDigit = true) :
    index? text = some (((natural? text).map .fromStart).getD .tooLarge) := by
  have hhead := Text.head?_ne_minus h
  unfold index?
  simp only [if_neg hhead]
  rw [if_neg (by simpa [hne] using h)]
  cases natural? text <;> simp [hhead]

theorem index?_of_minus (hne : text ≠ []) (h : ∀ c ∈ text, c.isDigit = true) :
    index? ('-' :: text)
      = some (((natural? text).map fun i => if i = 0 then .fromStart i else .fromEnd i).getD
          .tooLarge) := by
  unfold index?
  simp only [List.head?_cons, List.tail_cons, if_true]
  rw [if_neg (by simpa [hne] using h)]
  cases natural? text <;> simp

theorem index?_of_not (h : ∀ k, ¬Json.Denotes text k) : index? text = none := by
  have hnone := Json.index?_eq_none_iff.2 h
  unfold Json.index? at hnone
  unfold index?
  dsimp only at hnone ⊢
  generalize (if text.head? = some '-' then text.tail else text) = digits at hnone ⊢
  by_cases hdigits : digits = [] ∨ ¬digits.all Char.isDigit
  · rw [if_pos hdigits]
  · rw [if_neg hdigits] at hnone
    split at hnone <;> cases hnone

/-- In an array whose length is a word, indices in words lead to the same items as integers. -/
theorem item?_index? {items : List Json} (hlength : items.length < 2 ^ 64) (text : List Char) :
    (index? text).map (item? items) = (Json.index? text).map (Json.item? items) := by
  have hword : (UInt64.ofNat items.length).toNat = items.length :=
    UInt64.toNat_ofNat_of_lt' hlength
  by_cases hindex : ∃ k, Json.Denotes text k
  · obtain ⟨k, hk⟩ := hindex
    cases hk with
    | plain hne hdigits =>
      rw [index?_of_digits hne hdigits, Json.index?_of_digits hne hdigits]
      refine congrArg some ?_
      obtain ⟨hnone, hlarge⟩ | ⟨i, hi, hvalue⟩ := natural?_cases hdigits
      · -- an index that is no word is beyond an array whose length is one
        rw [hnone]
        exact (Json.item?_of_outOfRange (.inr (by omega))).symm
      · rw [hi, ← hvalue, Json.item?_of_nonneg _ (Int.natCast_nonneg _), Int.toNat_natCast]
        rfl
    | negated hne hdigits =>
      rw [index?_of_minus hne hdigits, Json.index?_of_minus hne hdigits]
      refine congrArg some ?_
      obtain ⟨hnone, hlarge⟩ | ⟨i, hi, hvalue⟩ := natural?_cases hdigits
      · rw [hnone]
        exact (Json.item?_of_outOfRange (.inl (by omega))).symm
      · rw [hi, ← hvalue, Option.map_some, Option.getD_some]
        by_cases hzero : i = 0
        · -- minus zero is the start, for words and for integers
          subst hzero
          rfl
        · have hpos : 0 < i.toNat := UInt64.pos_iff_ne_zero.2 hzero
          rw [if_neg hzero, item?]
          simp only [UInt64.lt_iff_toNat_lt, hword]
          split
          case isTrue hlt => exact (Json.item?_of_outOfRange (.inl (by omega))).symm
          case isFalse hle =>
            have hsub : (UInt64.ofNat items.length - i).toNat = items.length - i.toNat := by
              rw [UInt64.toNat_sub_of_le _ _ (UInt64.le_iff_toNat_le.2 (by omega)), hword]
            rw [Json.item?_of_neg (by omega) (by omega), hsub]
            congr 1
            omega
  · rw [index?_of_not (not_exists.1 hindex), Json.index?_eq_none_iff.2 (not_exists.1 hindex)]
    rfl

end Word

namespace Json

/-- **Paths are looked up segment by segment**: a look-up along two paths with a dot between them is
the look-up along the second one in what the first one leads to, and fails as the first one does.  A
segment leads to the entry of this key in an object; in an array to the item at this index, whatever
number of digits it has; and to nothing in other values.  Computing the index in words of 64 bits
makes no difference in an array whose length is a word.  A look-up fails at the first segment that
leads to nothing, and the error names this one. -/
theorem paths_stepwise (context : Json) :
    (∀ p q : String,
      (∀ found, context.lookup p = .ok found →
        context.lookup (p ++ "." ++ q) = found.lookup q) ∧
      ∀ e, context.lookup p = .error e → context.lookup (p ++ "." ++ q) = .error e) ∧
    (∀ segment : String, '.' ∉ segment.toList → ∀ result,
      context.lookup segment = result ↔ context.StepsTo segment result) ∧
    (∀ items : List Json, items.length < 2 ^ 64 → ∀ segment : String,
      (Word.index? segment.toList).map (Word.item? items)
        = (index? segment.toList).map (item? items)) ∧
    ∀ (path : String) (e : LookupError), context.lookup path = .error e ↔
      ∃ (front back : List String) (reached : Json),
        path.toList = ['.'].intercalate ((front ++ e.segment :: back).map String.toList) ∧
        (∀ part ∈ front ++ e.segment :: back, '.' ∉ part.toList) ∧
        context.walk (front.map String.toList) = .ok reached ∧
        reached.StepsTo e.segment (.error e) ∧
        ∃ reason, e.message = "Invalid context: key '" ++ e.segment ++ reason := by
  refine ⟨?_, ?_, ?_, ?_⟩
  · intro p q
    rw [lookup_append_dot]
    constructor
    · intro found h
      rw [h]
      rfl
    · intro e h
      rw [h]
      rfl
  · intro segment hdot result
    rw [lookup_of_no_dot context hdot, stepsTo_iff]
  · intro items hlength segment
    exact Word.item?_index? hlength segment.toList
  · intro path e
    rw [lookup, walk_eq_error_iff]
    constructor
    · rintro ⟨front, part, back, reached, hparts, hfront, hpart⟩
      have hstep := stepsTo_iff.2 hpart
      have hjoined : (front.map String.ofList ++ e.segment :: back.map String.ofList).map
          String.toList = segments path.toList := by
        rw [hstep.segment_eq, hparts]
        simp [Function.comp_def]
      refine ⟨front.map String.ofList, back.map String.ofList, reached, ?_, ?_, ?_, ?_,
        e.message_eq⟩
      · rw [hjoined, intercalate_segments]
      · intro part hpart
        apply not_dot_mem_segments path.toList
        rw [← hjoined]
        exact List.mem_map_of_mem hpart
      · simpa [Function.comp_def] using hfront
      · rwa [hstep.segment_eq]
    · rintro ⟨front, back, reached, hpath, hdots, hfront, hstep, -⟩
      have hsegments : segments path.toList
          = (front ++ e.segment :: back).map String.toList := by
        rw [hpath, segments_intercalate (by simp) (List.forall_mem_map.2 hdots)]
      refine ⟨front.map String.toList, e.segment.toList, back.map String.toList, reached, ?_,
        hfront, ?_⟩
      · rw [hsegments, List.map_append, List.map_cons]
      · rw [String.ofList_toList]
        exact stepsTo_iff.1 hstep

/-- The last of three ratings, an index that no word holds, and a key that is not there, behind
which the path goes on. -/
theorem paths_stepwise_indices :
    let ratings : List Json := [.bool false, .null, .bool true]
    let context : Json := .object [("rating", .array ratings)]
    context.lookup "rating.-1" = .ok (.bool true) ∧
    context.lookup "rating.18446744073709551616"
      = .error (.indexOutOfRange "18446744073709551616") ∧
    (Word.index? "18446744073709551616".toList).map (Word.item? ratings) = some none ∧
    context.lookup "user.name.first" = .error (.keyNotFound "user") ∧
    ∃ front back : List String,
      "user.name.first".toList
        = ['.'].intercalate ((front ++ "user" :: back).map String.toList) := by
  intro ratings context
  have hratings : context.lookup "rating" = .ok (.array ratings) := rfl
  have hlast : Denotes "-1".toList (-1) :=
    .negated (List.cons_ne_nil '1' []) (List.all_eq_true.1 rfl)
  obtain ⟨happend, -, -, hfails⟩ := paths_stepwise context
  obtain ⟨-, hstep, hword, -⟩ := paths_stepwise (.array ratings)
  refine ⟨?_, ?_, ?_, ?_, ?_⟩
  · rw [show "rating.-1" = "rating" ++ "." ++ "-1" from rfl, (happend _ _).1 _ hratings]
    exact (hstep "-1" (by decide) _).2 (.fromEnd hlast (by decide) (by decide) rfl)
  · rw [show "rating.18446744073709551616" = "rating" ++ "." ++ "18446744073709551616" from rfl,
      (happend _ _).1 _ hratings]
    exact (hstep _ (by decide) _).2
      (.outOfRange (.plain (by decide) (List.all_eq_true.1 rfl)) (.inr (by decide)))
  · rw [hword ratings (by decide)]
    rfl
  · exact (happend "user" "name.first").2 _ rfl
  · obtain ⟨front, back, reached, hpath, -⟩ :=
      (hfails "user.name.first" (.keyNotFound "user")).1 rfl
    exact ⟨front, back, hpath⟩

end Json

end FeatureFlags
