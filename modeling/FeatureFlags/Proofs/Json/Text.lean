import FeatureFlags.Json.Writer
import FeatureFlags.Proofs.Decimal.ReadBack
import FeatureFlags.Proofs.Json.Entries

/-!
The text of a value tells the value.

Different values have different texts (`Json.text_injective`), because a written value can be found
again at the front of any text that goes on behind it (`Json.delimited_chars`).  The first character
shows of which kind the value is.  A string ends at the first quote that is not escaped, arrays and
objects at their closing bracket; a number ends where its characters do, so what follows it must be
no such character.
-/

namespace FeatureFlags

/-! ### Texts that can be told from what follows -/

/-- The characters that written numbers are made of. -/
def Number.isNumeral (c : Char) : Bool :=
  c.isDigit || c = '-' || c = '+' || c = '.' || c = 'e'

/-- The text does not go on with a character of a number. -/
def Ends (text : List Char) : Prop := ∀ c ∈ text.head?, Number.isNumeral c = false

theorem ends_nil : Ends [] := by simp [Ends]

theorem ends_cons {c : Char} {text : List Char} (h : Number.isNumeral c = false) :
    Ends (c :: text) := by simpa [Ends] using h

section Delimited

variable {α β : Type} {write : α → List Char}

/-- In front of any text, what is written for `x` tells `x` and where it ends. -/
def Delimited (write : α → List Char) (x : α) : Prop :=
  ∀ y u v, Ends u → Ends v → write x ++ u = write y ++ v → x = y ∧ u = v

theorem Delimited.eq {x y : α} (h : Delimited write x) (heq : write x = write y) : x = y :=
  (h y [] [] ends_nil ends_nil (by rw [heq])).1

/-- What is written for the items of a list, with commas in between. -/
def listed (write : α → List Char) : List α → List Char
  | [] => []
  | [x] => write x
  | x :: rest => write x ++ ',' :: listed write rest

/-- What follows an item of a list: the end of the list or a comma and the other items. -/
def following (write : α → List Char) (close : Char) : List α → List Char → List Char
  | [], text => close :: text
  | x :: rest, text => ',' :: (listed write (x :: rest) ++ close :: text)

theorem listed_cons_append (x : α) (rest : List α) (close : Char) (text : List Char) :
    listed write (x :: rest) ++ close :: text = write x ++ following write close rest text := by
  cases rest with
  | nil => rfl
  | cons y rest => simp [listed, following]

theorem ends_following {close : Char} (hclose : Number.isNumeral close = false) (rest : List α)
    (text : List Char) : Ends (following write close rest text) := by
  cases rest with
  | nil => exact ends_cons hclose
  | cons => exact ends_cons rfl

/-- A list whose items are delimited is delimited by a bracket that starts no item. -/
theorem delimited_listed (close : Char) {xs : List α} (hclose : Number.isNumeral close = false)
    (hcomma : close ≠ ',') (hstart : ∀ x, (write x).head? ≠ some close ∧ write x ≠ [])
    (h : ∀ x ∈ xs, Delimited write x) : Delimited (fun xs => listed write xs ++ [close]) xs := by
  intro ys u v _ _ heq
  simp only [List.append_assoc, List.cons_append, List.nil_append] at heq
  have hnot : ∀ x rest text text',
      close :: text ≠ listed write (x :: rest) ++ close :: text' := by
    intro x rest text text' heq
    obtain ⟨hhead, hne⟩ := hstart x
    obtain ⟨c, others, hwrite⟩ := List.exists_cons_of_ne_nil hne
    rw [listed_cons_append, hwrite, List.cons_append, List.cons.injEq] at heq
    rw [hwrite, List.head?_cons, heq.1] at hhead
    exact hhead rfl
  induction xs generalizing ys with
  | nil =>
    cases ys with
    | nil => exact ⟨rfl, (List.cons.inj heq).2⟩
    | cons y ys => exact absurd heq (hnot y ys u v)
  | cons x rest ih =>
    cases ys with
    | nil => exact absurd heq.symm (hnot x rest v u)
    | cons y ys =>
      rw [List.forall_mem_cons] at h
      rw [listed_cons_append, listed_cons_append] at heq
      obtain ⟨rfl, hfollowing⟩ := h.1 y _ _ (ends_following hclose rest u)
        (ends_following hclose ys v) heq
      -- the items that follow are told apart by the first character behind this one
      cases rest with
      | nil =>
        cases ys with
        | nil => exact ⟨rfl, (List.cons.inj hfollowing).2⟩
        | cons => exact absurd (List.cons.inj hfollowing).1 hcomma
      | cons x' rest =>
        cases ys with
        | nil => exact absurd (List.cons.inj hfollowing).1.symm hcomma
        | cons y' ys =>
          obtain ⟨hrest, htext⟩ := ih h.2 (y' :: ys) (List.cons.inj hfollowing).2
          exact ⟨by rw [hrest], htext⟩

end Delimited

/-! ### Numbers -/

namespace Number

open Decimal (Spells SpellsExponent)

variable {text mark : List Char} {d : Decimal} {exponent : Int} {c : Char}

theorem isNumeral_of_isDigit (h : c.isDigit = true) : isNumeral c = true := by
  simp [isNumeral, h]

theorem isNumeral_of_mem_mark (h : SpellsExponent mark exponent) (hc : c ∈ mark) :
    isNumeral c = true := by
  have hdecimal : ∀ n, c ∈ Text.decimal n → isNumeral c = true :=
    fun n hn => isNumeral_of_isDigit (Text.isDigit_of_mem_decimal hn)
  cases h with
  | none => cases hc
  | plain n =>
    rcases List.mem_cons.1 hc with rfl | hc
    · rfl
    · exact hdecimal n hc
  | plus n | minus n =>
    rcases List.mem_cons.1 hc with rfl | hc
    · rfl
    · rcases List.mem_cons.1 hc with rfl | hc
      · rfl
      · exact hdecimal n hc

theorem isNumeral_of_mem_spells (h : Spells text d) (hc : c ∈ text) : isNumeral c = true := by
  cases h with
  | point hne hwhole hfraction hmark =>
    rcases List.mem_append.1 hc with hc | hc
    · exact isNumeral_of_isDigit (hwhole c hc)
    · rcases List.mem_cons.1 hc with rfl | hc
      · rfl
      · rcases List.mem_append.1 hc with hc | hc
        · exact isNumeral_of_isDigit (hfraction c hc)
        · exact isNumeral_of_mem_mark hmark hc
  | noPoint hne hwhole hmark =>
    rcases List.mem_append.1 hc with hc | hc
    · exact isNumeral_of_isDigit (hwhole c hc)
    · exact isNumeral_of_mem_mark hmark hc

/-- A written float shows that it is none of the integers. -/
theorem exists_mark_of_spells (h : Spells text d) : '.' ∈ text ∨ 'e' ∈ text := by
  cases h with
  | point => exact .inl (by simp)
  | noPoint hne hwhole hmark hwritten =>
    refine .inr (List.mem_append_right _ ?_)
    cases hmark with
    | none => exact absurd rfl hwritten
    | plain | plus | minus => exact List.mem_cons_self

theorem eq_or_isDigit_of_mem_integerText {n : Int} (hc : c ∈ integerText n) :
    c = '-' ∨ c.isDigit = true := by
  unfold integerText at hc
  split at hc
  · rcases List.mem_cons.1 hc with rfl | hc
    · exact .inl rfl
    · exact .inr (Text.isDigit_of_mem_decimal hc)
  · exact .inr (Text.isDigit_of_mem_decimal hc)

theorem decimal_injective : Function.Injective Text.decimal := by
  intro m n h
  rw [← Text.digitsValue_decimal m, h, Text.digitsValue_decimal]

/-- No decimal starts with a minus sign. -/
theorem decimal_ne_minus (n : Nat) (rest : List Char) : Text.decimal n ≠ '-' :: rest := by
  intro h
  have hdigit : '-'.isDigit = true := Text.isDigit_of_mem_decimal (h ▸ List.mem_cons_self)
  cases hdigit

theorem integerText_injective : Function.Injective integerText := by
  intro m n h
  unfold integerText at h
  split at h
  case isTrue hm =>
    split at h
    case isTrue hn =>
      have := decimal_injective (List.cons.inj h).2
      omega
    case isFalse => exact absurd h.symm (decimal_ne_minus _ _)
  case isFalse hm =>
    split at h
    case isTrue => exact absurd h (decimal_ne_minus _ _)
    case isFalse hn =>
      have := decimal_injective h
      omega

theorem finiteText_injective (format : NumberFormat) : Function.Injective format.finiteText := by
  intro x y h
  have hx := Binary64.read?_text format (.finite x)
  have hy := Binary64.read?_text format (.finite y)
  simp only [NumberFormat.text] at hx hy
  rw [h, hy] at hx
  exact (Binary64.finite.inj (Option.some.inj hx)).symm

/-- A float is written with a point or an exponent, and an integer without. -/
theorem integerText_ne_finiteText (n : Int) (x : Finite) : integerText n ≠ format.finiteText x := by
  intro h
  obtain ⟨text, d, htext, hspells, -⟩ := Binary64.exists_spells_finiteText format x
  have hmem : ∀ c ∈ text, c ∈ integerText n := by
    intro c hc
    rw [h, htext]
    split
    · exact List.mem_cons_of_mem _ hc
    · exact hc
  rcases exists_mark_of_spells hspells with hmark | hmark
  · exact absurd (eq_or_isDigit_of_mem_integerText (hmem _ hmark)) (by decide)
  · exact absurd (eq_or_isDigit_of_mem_integerText (hmem _ hmark)) (by decide)

/-- Different numbers have different texts. -/
theorem text_injective : Function.Injective Number.text := by
  intro m n h
  cases m with
  | integer m hm =>
    cases n with
    | integer n hn =>
      obtain rfl := integerText_injective h
      rfl
    | float y => exact absurd h (integerText_ne_finiteText m y)
  | float x =>
    cases n with
    | integer n hn => exact absurd h.symm (integerText_ne_finiteText n x)
    | float y =>
      obtain rfl := finiteText_injective format h
      rfl

theorem text_ne_nil (n : Number) : n.text ≠ [] := by
  cases n with
  | integer n hn =>
    rw [Number.text, integerText]
    split
    · exact List.cons_ne_nil _ _
    · exact Text.decimal_ne_nil _
  | float x =>
    obtain ⟨text, d, htext, hspells, -⟩ := Binary64.exists_spells_finiteText format x
    obtain ⟨c, rest, rfl, -⟩ := hspells.head
    rw [Number.text, htext]
    split <;> exact List.cons_ne_nil _ _

theorem isNumeral_of_mem_text {n : Number} (hc : c ∈ n.text) : isNumeral c = true := by
  cases n with
  | integer n hn =>
    rcases eq_or_isDigit_of_mem_integerText hc with rfl | hdigit
    · rfl
    · exact isNumeral_of_isDigit hdigit
  | float x =>
    obtain ⟨text, d, htext, hspells, -⟩ := Binary64.exists_spells_finiteText format x
    rw [Number.text, htext] at hc
    split at hc
    · rcases List.mem_cons.1 hc with rfl | hc
      · rfl
      · exact isNumeral_of_mem_spells hspells hc
    · exact isNumeral_of_mem_spells hspells hc

theorem takeWhile_text (n : Number) {u : List Char} (hu : Ends u) :
    (n.text ++ u).takeWhile isNumeral = n.text := by
  rw [List.takeWhile_append_of_pos fun c hc => isNumeral_of_mem_text hc]
  cases u with
  | nil => simp
  | cons c u =>
    have hc : isNumeral c = false := hu c rfl
    simp [hc]

theorem delimited_text (n : Number) : Delimited Number.text n := by
  intro m u v hu hv h
  have htext : n.text = m.text := by
    rw [← takeWhile_text n hu, h, takeWhile_text m hv]
  rw [htext] at h
  exact ⟨text_injective htext, List.append_cancel_left h⟩

end Number

namespace Json

variable {s : String} {u : List Char}

/-! ### Strings -/

/-- The character at the front of a written string, and what follows it; none where the string
ends. -/
def unescape? : List Char → Option (Char × List Char)
  | '\\' :: 'b' :: rest => some ('\x08', rest)
  | '\\' :: 't' :: rest => some ('\t', rest)
  | '\\' :: 'n' :: rest => some ('\n', rest)
  | '\\' :: 'f' :: rest => some ('\x0c', rest)
  | '\\' :: 'r' :: rest => some ('\r', rest)
  | '\\' :: 'u' :: '0' :: '0' :: high :: low :: rest =>
    ((List.range 0x20).find? fun n => hexPair n = [high, low]).map fun n => (Char.ofNat n, rest)
  | '\\' :: c :: rest => some (c, rest)
  | '"' :: _ => none
  | c :: rest => some (c, rest)
  | [] => none

theorem find?_hexPair {n : Nat} (h : n < 0x20) :
    (List.range 0x20).find? (fun m => hexPair m = hexPair n) = some n := by
  have hall : ∀ n : Fin 0x20, (List.range 0x20).find? (fun m => hexPair m = hexPair n.val)
      = some n.val := by decide
  exact hall ⟨n, h⟩

theorem unescape?_escapeChar (c : Char) (rest : List Char) :
    unescape? (escapeChar c ++ rest) = some (c, rest) := by
  unfold escapeChar
  split_ifs with hquote hbackslash hbackspace htab hline hform hreturn hcontrol
  · subst hquote
    rfl
  · subst hbackslash
    rfl
  · subst hbackspace
    rfl
  · subst htab
    rfl
  · subst hline
    rfl
  · subst hform
    rfl
  · subst hreturn
    rfl
  · show ((List.range 0x20).find? fun n => hexPair n = hexPair c.toNat).map
      (fun n => (Char.ofNat n, rest)) = some (c, rest)
    rw [find?_hexPair hcontrol, Option.map_some, Char.ofNat_toNat]
  · simp only [List.cons_append, List.nil_append]
    unfold unescape?
    split <;> simp_all

/-- Escaped characters are told from what follows the quote behind them. -/
theorem eq_of_escaped {cs ds v : List Char}
    (h : cs.flatMap escapeChar ++ '"' :: u = ds.flatMap escapeChar ++ '"' :: v) :
    cs = ds ∧ u = v := by
  have hread := congrArg unescape? h
  induction cs generalizing ds with
  | nil =>
    cases ds with
    | nil => exact ⟨rfl, (List.cons.inj h).2⟩
    | cons d ds =>
      rw [List.flatMap_cons, List.append_assoc, unescape?_escapeChar] at hread
      cases hread
  | cons c cs ih =>
    rw [List.flatMap_cons, List.append_assoc, unescape?_escapeChar] at hread
    cases ds with
    | nil => cases hread
    | cons d ds =>
      rw [List.flatMap_cons, List.append_assoc, unescape?_escapeChar, Option.some.injEq,
        Prod.mk.injEq] at hread
      obtain ⟨rfl, hrest⟩ := hread
      obtain ⟨rfl, htext⟩ := ih hrest (congrArg unescape? hrest)
      exact ⟨rfl, htext⟩

theorem delimited_stringText (s : String) : Delimited stringText s := by
  intro t u v _ _ h
  simp only [stringText, List.cons_append, List.append_assoc, List.nil_append, List.cons.injEq,
    true_and] at h
  obtain ⟨hlist, htext⟩ := eq_of_escaped h
  exact ⟨String.toList_inj.1 hlist, htext⟩

/-! ### Values -/

/-- The kind of the values whose text starts with the character. -/
def startKind? (c : Char) : Option Kind :=
  if c = 'n' then some .null
  else if c = 't' ∨ c = 'f' then some .boolean
  else if c = '"' then some .string
  else if c = '[' then some .array
  else if c = '\x7b' then some .object
  else if Number.isNumeral c then some .number
  else none

theorem startKind?_of_isNumeral {c : Char} (h : Number.isNumeral c = true) :
    startKind? c = some .number := by
  have hne : ∀ d, Number.isNumeral d = false → c ≠ d := by
    rintro d hd rfl
    rw [h] at hd
    cases hd
  simp [startKind?, h, hne 'n' rfl, hne 't' rfl, hne 'f' rfl, hne '"' rfl, hne '[' rfl,
    hne '\x7b' rfl]

theorem exists_start (a : Json) : ∃ c rest, a.chars = c :: rest ∧ startKind? c = some a.kind := by
  cases a with
  | null => exact ⟨'n', _, rfl, rfl⟩
  | bool b =>
    cases b with
    | false => exact ⟨'f', _, rfl, rfl⟩
    | true => exact ⟨'t', _, rfl, rfl⟩
  | number n =>
    obtain ⟨c, rest, htext⟩ := List.exists_cons_of_ne_nil n.text_ne_nil
    have hc : Number.isNumeral c = true :=
      Number.isNumeral_of_mem_text (htext ▸ List.mem_cons_self)
    exact ⟨c, rest, by rw [chars, htext], startKind?_of_isNumeral hc⟩
  | string s => exact ⟨'"', _, by rw [chars, stringText]; rfl, rfl⟩
  | array items => exact ⟨'[', _, by rw [chars]; rfl, rfl⟩
  | object entries => exact ⟨'\x7b', _, by rw [chars]; rfl, rfl⟩

theorem kind_eq_of_chars {a b : Json} {u v : List Char} (h : a.chars ++ u = b.chars ++ v) :
    a.kind = b.kind := by
  obtain ⟨c, rest, ha, hc⟩ := exists_start a
  obtain ⟨d, rest', hb, hd⟩ := exists_start b
  rw [ha, hb, List.cons_append, List.cons_append, List.cons.injEq] at h
  rw [h.1, hd] at hc
  exact (Option.some.inj hc).symm

/-- What is written for an entry of an object. -/
def entryText (e : String × Json) : List Char := stringText e.1 ++ ':' :: e.2.chars

theorem itemChars_eq (items : List Json) : itemChars items = listed chars items := by
  induction items with
  | nil => rw [itemChars, listed]
  | cons item rest ih =>
    cases rest with
    | nil => rw [itemChars, listed]
    | cons next rest => simp [itemChars, listed, ih]

theorem entryChars_eq (entries : List (String × Json)) :
    entryChars entries = listed entryText entries := by
  induction entries with
  | nil => rw [entryChars, listed]
  | cons e rest ih =>
    cases rest with
    | nil => rw [entryChars, listed, entryText]
    | cons next rest => simp [entryChars, listed, ih, entryText]

theorem chars_array (items : List Json) :
    (array items).chars = '[' :: (listed chars items ++ [']']) := by
  rw [chars, itemChars_eq]
  rfl

theorem chars_object (entries : List (String × Json)) :
    (object entries).chars = '\x7b' :: (listed entryText entries ++ ['\x7d']) := by
  rw [chars, entryChars_eq]
  rfl

/-- An entry is delimited if its value is: its name and the colon behind it come first. -/
theorem delimited_entryText {e : String × Json} (h : Delimited chars e.2) :
    Delimited entryText e := by
  intro f u v hu hv heq
  simp only [entryText, List.append_assoc, List.cons_append] at heq
  obtain ⟨hkey, hrest⟩ := delimited_stringText e.1 f.1 _ _ (ends_cons rfl) (ends_cons rfl) heq
  obtain ⟨hvalue, htext⟩ := h f.2 u v hu hv (List.cons.inj hrest).2
  exact ⟨Prod.ext hkey hvalue, htext⟩

/-- In front of any text that does not go on with a character of a number, a written value tells
the value and where it ends. -/
theorem delimited_chars (a : Json) : Delimited chars a := by
  intro b u v hu hv h
  have hkind := kind_eq_of_chars h
  induction a using value_induction generalizing b u v with
  | null =>
    cases b with
    | null => exact ⟨rfl, List.append_cancel_left h⟩
    | _ => cases hkind
  | bool x =>
    cases b with
    | bool y =>
      cases x <;> cases y <;> simp [chars] at h ⊢
      · exact h
      · exact h
    | _ => cases hkind
  | number n =>
    cases b with
    | number m =>
      rw [chars, chars] at h
      obtain ⟨rfl, htext⟩ := n.delimited_text m u v hu hv h
      exact ⟨rfl, htext⟩
    | _ => cases hkind
  | string s =>
    cases b with
    | string t =>
      rw [chars, chars] at h
      obtain ⟨rfl, htext⟩ := delimited_stringText s t u v hu hv h
      exact ⟨rfl, htext⟩
    | _ => cases hkind
  | array items ih =>
    cases b with
    | array items' =>
      rw [chars_array, chars_array, List.cons_append, List.cons_append, List.cons.injEq] at h
      have hitems : ∀ item ∈ items, Delimited chars item := fun item hitem b u v hu hv h =>
        ih item hitem b u v hu hv h (kind_eq_of_chars h)
      have hstart : ∀ b : Json, b.chars.head? ≠ some ']' ∧ b.chars ≠ [] := by
        intro b
        obtain ⟨c, rest, hb, hc⟩ := exists_start b
        rw [hb]
        refine ⟨?_, List.cons_ne_nil _ _⟩
        rw [List.head?_cons, ne_eq, Option.some.injEq]
        rintro rfl
        cases hc
      obtain ⟨rfl, htext⟩ := delimited_listed ']' rfl (by decide) hstart hitems items' u v hu
        hv h.2
      exact ⟨rfl, htext⟩
    | _ => cases hkind
  | object entries ih =>
    cases b with
    | object entries' =>
      rw [chars_object, chars_object, List.cons_append, List.cons_append, List.cons.injEq] at h
      have hentries : ∀ e ∈ entries, Delimited entryText e := fun e he =>
        delimited_entryText fun b u v hu hv h => ih e he b u v hu hv h (kind_eq_of_chars h)
      have hstart : ∀ e, (entryText e).head? ≠ some '\x7d' ∧ entryText e ≠ [] := by
        intro e
        simp [entryText, stringText]
      obtain ⟨rfl, htext⟩ := delimited_listed '\x7d' rfl (by decide) hstart hentries entries'
        u v hu hv h.2
      exact ⟨rfl, htext⟩
    | _ => cases hkind

/-- Different values have different texts. -/
theorem text_injective : Function.Injective Json.text := by
  intro a b h
  exact (delimited_chars a).eq (String.ofList_inj.1 h)

end Json

end FeatureFlags
