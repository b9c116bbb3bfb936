import FeatureFlags.Proofs.Json.Entries
import FeatureFlags.Proofs.Rule.Finiteness

/-!
Loose equality is equality of values whose numbers are read as binary64 numbers.

`Json.inFloats` reads every number of a value as a binary64 number, with one zero, and lists the
entries of every object by key.  Two values are loosely equal if this makes one value of them
(`Json.looselyEqual_iff`), so the equality is an equivalence although the comparison of objects is
one-sided: it looks for the keys of the left one on the right, and compares the sizes.  An object
holds a key once, so where the sizes agree no key of the right one is missing on the left
(`Json.lookup_map_eq_iff`).
-/

namespace FeatureFlags

/-! ### One zero -/

/-- The number, or 0.0 in the place of -0.0. -/
def Finite.oneZero (x : Finite) : Finite := if x.isZero then .zero else x

theorem Finite.units_oneZero (x : Finite) : x.oneZero.units = x.units := by
  unfold oneZero
  split
  case isTrue h =>
    have hmagnitude : x.magnitude = 0 := isZero_iff.1 h
    simp [units, zero, hmagnitude]
  case isFalse => rfl

/-- Numbers are equal if they are the same number up to the sign of zero. -/
theorem Finite.equal_iff {x y : Finite} : x.equal y = true ↔ x.oneZero = y.oneZero := by
  rw [equal, decide_eq_true_eq]
  constructor
  · intro h
    obtain ⟨sx, mx, hx⟩ := x
    obtain ⟨sy, my, hy⟩ := y
    -- the units say the magnitude, and also the sign unless they are 0
    obtain rfl : mx = my := by
      simp only [units] at h
      split at h <;> split at h <;> omega
    by_cases hzero : mx = 0
    · simp [oneZero, isZero, hzero]
    · obtain rfl : sx = sy := by
        cases sx <;> cases sy <;> simp [units] at h ⊢ <;> omega
      rfl
  · intro h
    rw [← units_oneZero x, h, units_oneZero]

theorem Number.equal_of_same {m n : Number} (h : m.same n = true) : m.equal n = true := by
  cases m with
  | integer =>
    cases n with
    | integer =>
      obtain rfl := of_decide_eq_true h
      exact Finite.equal_iff.2 rfl
    | float => cases h
  | float =>
    cases n with
    | integer => cases h
    | float => exact h

theorem Number.same_self (n : Number) : n.same n = true := by
  cases n with
  | integer => exact decide_eq_true rfl
  | float => exact Finite.equal_iff.2 rfl

namespace Json

variable {a b : Json} {xs ys : List (String × Json)}

/-! ### Reading numbers as binary64 numbers -/

mutual

/-- The value with every number in it read as a binary64 number, with one zero, and the entries of
every object sorted by key. -/
def inFloats : Json → Json
  | .null => .null
  | .bool b => .bool b
  | .number n => .number (.float n.toFinite.oneZero)
  | .string s => .string s
  | .array items => .array (itemsInFloats items)
  | .object entries => ofFields (entriesInFloats entries)

def itemsInFloats : List Json → List Json
  | [] => []
  | x :: xs => inFloats x :: itemsInFloats xs

def entriesInFloats : List (String × Json) → List (String × Json)
  | [] => []
  | (k, x) :: xs => (k, inFloats x) :: entriesInFloats xs

end

theorem itemsInFloats_eq_map (items : List Json) : itemsInFloats items = items.map inFloats := by
  induction items with
  | nil => rw [itemsInFloats, List.map_nil]
  | cons item rest ih => rw [itemsInFloats, ih, List.map_cons]

theorem entriesInFloats_eq_map (entries : List (String × Json)) :
    entriesInFloats entries = entries.map fun e => (e.1, e.2.inFloats) := by
  induction entries with
  | nil => rw [entriesInFloats, List.map_nil]
  | cons e rest ih => rw [entriesInFloats, ih, List.map_cons]

theorem keys_entriesInFloats (entries : List (String × Json)) :
    keys (entriesInFloats entries) = keys entries := by
  rw [entriesInFloats_eq_map, keys, List.map_map]
  rfl

theorem inFloats_array (items : List Json) :
    (array items).inFloats = .array (items.map inFloats) := by
  rw [inFloats, itemsInFloats_eq_map]

/-- Objects are read as one if each key has values that are read as one, or is in neither. -/
theorem inFloats_object_eq_iff (hx : (keys xs).Nodup) (hy : (keys ys).Nodup) :
    (object xs).inFloats = (object ys).inFloats ↔
      ∀ k, (xs.lookup k).map inFloats = (ys.lookup k).map inFloats := by
  rw [inFloats, inFloats, ofFields_eq_iff]
  · simp only [entriesInFloats_eq_map, lookup_map]
  · rw [keys_entriesInFloats]
    exact hx
  · rw [keys_entriesInFloats]
    exact hy

/-- The order of the entries does not count. -/
theorem inFloats_of_perm (h : (object xs).KeysOnce) (hperm : xs.Perm ys) :
    (object xs).inFloats = (object ys).inFloats := by
  have hx := h.nodup_keys
  have hy := (h.perm hperm).nodup_keys
  rw [inFloats_object_eq_iff hx hy]
  intro k
  have hlookup : xs.lookup k = ys.lookup k := by
    apply Option.ext
    intro x
    rw [lookup_eq_some hx, lookup_eq_some hy, hperm.mem_iff]
  rw [hlookup]

/-! ### Loose equality -/

theorem entriesFoundIn_iff :
    entriesFoundIn xs ys = true ↔
      ∀ e ∈ xs, ∃ y, ys.lookup e.1 = some y ∧ e.2.looselyEqual y = true := by
  induction xs with
  | nil => simp [entriesFoundIn]
  | cons e rest ih =>
    rw [entriesFoundIn, Bool.and_eq_true, ih, List.forall_mem_cons]
    apply and_congr_left'
    cases ys.lookup e.1 with
    | none => simp
    | some y => simp

theorem looselyEqualItems_iff {items items' : List Json}
    (ih : ∀ item ∈ items, ∀ value, value.KeysOnce →
      (item.looselyEqual value = true ↔ item.inFloats = value.inFloats))
    (h : ∀ item ∈ items', item.KeysOnce) :
    looselyEqualItems items items' = true ↔ items.map inFloats = items'.map inFloats := by
  induction items generalizing items' with
  | nil => cases items' <;> simp [looselyEqualItems]
  | cons item rest ihrest =>
    cases items' with
    | nil => simp [looselyEqualItems]
    | cons item' rest' =>
      rw [List.forall_mem_cons] at ih h
      rw [looselyEqualItems, Bool.and_eq_true, ih.1 item' h.1, ihrest ih.2 h.2, List.map_cons,
        List.map_cons, List.cons.injEq]

/-- Looking for the keys of one side on the other is enough, as the sizes agree. -/
theorem looselyEqual_object_iff (hx : (keys xs).Nodup) (hy : (keys ys).Nodup)
    (ih : ∀ e ∈ xs, ∀ value, value.KeysOnce →
      (e.2.looselyEqual value = true ↔ e.2.inFloats = value.inFloats))
    (h : ∀ e ∈ ys, e.2.KeysOnce) :
    (object xs).looselyEqual (object ys) = true ↔ (object xs).inFloats = (object ys).inFloats := by
  rw [looselyEqual, Bool.and_eq_true, decide_eq_true_eq, entriesFoundIn_iff,
    inFloats_object_eq_iff hx hy, lookup_map_eq_iff inFloats hx hy]
  apply and_congr_right'
  refine forall₂_congr fun e he => exists_congr fun y => and_congr_right fun hlookup => ?_
  have hmem : (e.1, y) ∈ ys := (lookup_eq_some hy).1 hlookup
  exact ih e he y (h (e.1, y) hmem)

/-- Two values are loosely equal if they are read as one value. -/
theorem looselyEqual_iff (ha : a.KeysOnce) (hb : b.KeysOnce) :
    a.looselyEqual b = true ↔ a.inFloats = b.inFloats := by
  -- the left value is taken apart, and the right one has to be of the same form
  induction ha generalizing b with
  | null => cases hb <;> simp [looselyEqual, inFloats, ofFields]
  | bool => cases hb <;> simp [looselyEqual, inFloats, ofFields]
  | number m =>
    cases hb with
    | number n =>
      rw [looselyEqual, Number.equal, Finite.equal_iff, inFloats, inFloats]
      simp
    | _ => simp [looselyEqual, inFloats, ofFields]
  | string => cases hb <;> simp [looselyEqual, inFloats, ofFields]
  | array _ ih =>
    cases hb with
    | array h =>
      rw [looselyEqual, looselyEqualItems_iff ih h, inFloats_array, inFloats_array, array.injEq]
    | _ => simp [looselyEqual, inFloats, ofFields]
  | object hx _ ih =>
    cases hb with
    | object hy h => exact looselyEqual_object_iff hx hy ih h
    | _ => simp [looselyEqual, inFloats, ofFields]

/-! ### Strict equality -/

theorem map_inFloats_of_sameItems {items items' : List Json}
    (ih : ∀ item ∈ items, ∀ value, item.same value = true → item.inFloats = value.inFloats)
    (h : sameItems items items' = true) : items.map inFloats = items'.map inFloats := by
  induction items generalizing items' with
  | nil =>
    cases items' with
    | nil => rfl
    | cons => simp [sameItems] at h
  | cons item rest ihrest =>
    cases items' with
    | nil => simp [sameItems] at h
    | cons item' rest' =>
      rw [sameItems, Bool.and_eq_true] at h
      rw [List.forall_mem_cons] at ih
      rw [List.map_cons, List.map_cons, ih.1 item' h.1, ihrest ih.2 h.2]

theorem entriesInFloats_of_sameEntries
    (ih : ∀ e ∈ xs, ∀ value, e.2.same value = true → e.2.inFloats = value.inFloats)
    (h : sameEntries xs ys = true) : entriesInFloats xs = entriesInFloats ys := by
  induction xs generalizing ys with
  | nil =>
    cases ys with
    | nil => rfl
    | cons => simp [sameEntries] at h
  | cons e rest ihrest =>
    cases ys with
    | nil => simp [sameEntries] at h
    | cons e' rest' =>
      rw [sameEntries, Bool.and_eq_true, Bool.and_eq_true, decide_eq_true_eq] at h
      rw [List.forall_mem_cons] at ih
      obtain ⟨⟨hkey, hvalue⟩, hrest⟩ := h
      rw [entriesInFloats, entriesInFloats, hkey, ih.1 e'.2 hvalue, ihrest ih.2 hrest]

/-- Strictly equal values are read as one value. -/
theorem inFloats_of_same (h : a.same b = true) : a.inFloats = b.inFloats := by
  induction a using value_induction generalizing b with
  | null => cases b <;> simp [same, inFloats] at h ⊢
  | bool => cases b <;> simp_all [same, inFloats]
  | number m =>
    cases b with
    | number n =>
      have hequal : m.equal n = true := by
        rw [same] at h
        exact Number.equal_of_same h
      rw [inFloats, inFloats, Finite.equal_iff.1 hequal]
    | _ => simp [same] at h
  | string => cases b <;> simp_all [same, inFloats]
  | array items ih =>
    cases b with
    | array items' =>
      rw [same] at h
      rw [inFloats_array, inFloats_array,
        map_inFloats_of_sameItems (fun item hitem value => ih item hitem) h]
    | _ => simp [same] at h
  | object entries ih =>
    cases b with
    | object entries' =>
      rw [same] at h
      rw [inFloats, inFloats, entriesInFloats_of_sameEntries (fun e he value => ih e he) h]
    | _ => simp [same] at h

theorem same_self (a : Json) : a.same a = true := by
  induction a using value_induction with
  | null => rw [same]
  | bool | string => simp [same]
  | number n =>
    rw [same]
    exact n.same_self
  | array items ih =>
    rw [same]
    induction items with
    | nil => rw [sameItems]
    | cons item rest ihrest =>
      rw [List.forall_mem_cons] at ih
      rw [sameItems, ih.1, ihrest ih.2]
      rfl
  | object entries ih =>
    rw [same]
    induction entries with
    | nil => rw [sameEntries]
    | cons e rest ihrest =>
      rw [List.forall_mem_cons] at ih
      rw [sameEntries, decide_eq_true rfl, ih.1, ihrest ih.2]
      rfl

/-- A value without numbers is read as it is. -/
theorem inFloats_eq_self (hnormal : a.Normal) (h : ∀ n : Number, ¬n.Occurs a) :
    a.inFloats = a := by
  induction a using value_induction with
  | null | bool | string => rw [inFloats]
  | number n => exact absurd .here (h n)
  | array items ih =>
    rw [Normal, normalItems_iff] at hnormal
    rw [inFloats_array, array.injEq]
    conv_rhs => rw [← List.map_id items]
    apply List.map_congr_left
    intro item hitem
    exact ih item hitem (hnormal item hitem) fun n hn => h n (.item hitem hn)
  | object entries ih =>
    rw [Normal, normalEntries_iff] at hnormal
    obtain ⟨hascending, hparts⟩ := hnormal
    have hread : entriesInFloats entries = entries := by
      rw [entriesInFloats_eq_map]
      conv_rhs => rw [← List.map_id entries]
      apply List.map_congr_left
      intro e he
      rw [ih e he (hparts e he) fun n hn => h n (.entry he hn)]
      rfl
    rw [inFloats, hread]
    exact ofFields_eq_self hascending

/-- On values without numbers, whose objects are sorted, the two equalities are equality. -/
theorem looselyEqual_eq_same (ha : a.Normal) (hb : b.Normal) (ha' : ∀ n : Number, ¬n.Occurs a)
    (hb' : ∀ n : Number, ¬n.Occurs b) : a.looselyEqual b = a.same b := by
  rw [Bool.eq_iff_iff, looselyEqual_iff (keysOnce_of_normal ha) (keysOnce_of_normal hb)]
  constructor
  · intro h
    -- without numbers there is nothing to read, so the two are one value
    rw [inFloats_eq_self ha ha', inFloats_eq_self hb hb'] at h
    subst h
    exact same_self a
  · exact inFloats_of_same

end Json

namespace Operator

open Json (KeysOnce)

theorem equal_eq_true_iff {a b context : Json} (ha : a.KeysOnce) (hb : b.KeysOnce) :
    equal.apply [a, b] context = .ok (.bool true) ↔ a.inFloats = b.inFloats := by
  rw [apply, Except.ok.injEq, Json.bool.injEq, Json.looselyEqual_iff ha hb]

/-- **Loose equality is equality with every number read as a binary64 number**: two values are
equal if and only if they become the same value when each number in them is replaced by its value,
0.0 and -0.0 being one, and the entries of each object are sorted; inequality answers the opposite.
The order in which an object lists its entries does not count.  So the equality is reflexive,
symmetric and transitive, it follows from strict equality, and on values without numbers it is
strict equality. -/
theorem equality_in_floats (context : Json) :
    (∀ a b : Json, a.KeysOnce → b.KeysOnce →
      ∃ answer, equal.apply [a, b] context = .ok (.bool answer) ∧
        notEqual.apply [a, b] context = .ok (.bool !answer) ∧
        (answer = true ↔ a.inFloats = b.inFloats)) ∧
    (∀ xs ys : List (String × Json), (Json.object xs).KeysOnce → xs.Perm ys →
      equal.apply [.object xs, .object ys] context = .ok (.bool true)) ∧
    Equivalence (fun a b : { value : Json // value.KeysOnce } =>
      equal.apply [a.1, b.1] context = .ok (.bool true)) ∧
    (∀ a b : Json, a.KeysOnce → b.KeysOnce →
      strictEqual.apply [a, b] context = .ok (.bool true) →
      equal.apply [a, b] context = .ok (.bool true)) ∧
    ∀ a b : Json, a.Normal → b.Normal →
      (∀ n : Number, ¬n.Occurs a) → (∀ n : Number, ¬n.Occurs b) →
      equal.apply [a, b] context = strictEqual.apply [a, b] context := by
  refine ⟨?_, ?_, ⟨?_, ?_, ?_⟩, ?_, ?_⟩
  · intro a b ha hb
    exact ⟨a.looselyEqual b, rfl, rfl, Json.looselyEqual_iff ha hb⟩
  · intro xs ys h hperm
    have hys : (Json.object ys).KeysOnce := h.perm hperm
    rw [equal_eq_true_iff h hys]
    exact Json.inFloats_of_perm h hperm
  · intro a
    rw [equal_eq_true_iff a.2 a.2]
  · intro a b h
    rw [equal_eq_true_iff a.2 b.2] at h
    rw [equal_eq_true_iff b.2 a.2]
    exact h.symm
  · intro a b c hab hbc
    rw [equal_eq_true_iff a.2 b.2] at hab
    rw [equal_eq_true_iff b.2 c.2] at hbc
    rw [equal_eq_true_iff a.2 c.2]
    exact hab.trans hbc
  · intro a b ha hb h
    have hsame : a.same b = true := by simpa only [apply, Except.ok.injEq, Json.bool.injEq] using h
    rw [equal_eq_true_iff ha hb]
    exact Json.inFloats_of_same hsame
  · intro a b ha hb ha' hb'
    rw [apply, apply, Json.looselyEqual_eq_same ha hb ha' hb']

/-- Two objects that list their keys in different orders, with 1 and 0.0 on the one side where there
are 1.0 and -0.0 on the other: equal, though not strictly. -/
theorem equality_in_floats_nested :
    let one : Number := .integer 1 (by decide)
    let oneFloat : Number := .float (Finite.ofInt 1 (by decide))
    let zero : Number := .float .zero
    let negativeZero : Number := .float (Finite.zero.neg)
    let left : List (String × Json) :=
      [("sizes", .array [.number one, .number zero]), ("name", .string "tee")]
    let right : List (String × Json) :=
      [("name", .string "tee"), ("sizes", .array [.number oneFloat, .number negativeZero])]
    (Json.object left).KeysOnce ∧ (Json.object right).KeysOnce ∧
    equal.apply [.object left, .object right] .null = .ok (.bool true) ∧
    notEqual.apply [.object left, .object right] .null = .ok (.bool false) ∧
    strictEqual.apply [.object left, .object right] .null = .ok (.bool false) ∧
    equal.apply [.object left, .object left.reverse] .null = .ok (.bool true) ∧
    equal.apply [.array [.string "tee"], .string "tee"] .null
      = strictEqual.apply [.array [.string "tee"], .string "tee"] .null := by
  intro one oneFloat zero negativeZero left right
  obtain ⟨hread, horder, -, -, hcoincide⟩ := equality_in_floats .null
  have hleft : (Json.object left).KeysOnce := by
    refine .object (by decide) ?_
    simp [left, KeysOnce.string, KeysOnce.array, KeysOnce.number]
  have hright : (Json.object right).KeysOnce := by
    refine .object (by decide) ?_
    simp [right, KeysOnce.string, KeysOnce.array, KeysOnce.number]
  have hone : one.toFinite.oneZero = oneFloat.toFinite.oneZero := rfl
  have hzero : zero.toFinite.oneZero = negativeZero.toFinite.oneZero := rfl
  have hvalues : (Json.object left).inFloats = (Json.object right).inFloats :=
    calc (Json.object left).inFloats
        = (Json.object left.reverse).inFloats :=
          Json.inFloats_of_perm hleft (List.reverse_perm left).symm
      _ = (Json.object right).inFloats := by
        simp only [left, right, List.reverse_cons, List.reverse_nil, List.nil_append,
          List.cons_append, Json.inFloats, Json.entriesInFloats, Json.itemsInFloats, hone, hzero]
  obtain ⟨answer, hequal, hnotEqual, hiff⟩ := hread _ _ hleft hright
  obtain rfl : answer = true := hiff.2 hvalues
  refine ⟨hleft, hright, hequal, hnotEqual, rfl, ?_, ?_⟩
  · exact horder left left.reverse hleft (List.reverse_perm left).symm
  · apply hcoincide
    · trivial
    · trivial
    · rintro n (_ | ⟨hmem, h⟩)
      obtain rfl := List.mem_singleton.1 hmem
      cases h
    · rintro n ⟨⟩

end Operator

end FeatureFlags
