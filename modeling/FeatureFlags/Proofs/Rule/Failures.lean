import FeatureFlags.Proofs.Rule.Finiteness

/-!
How operators fail, and what that leaves for trees.

An operator counts its operands before it looks at any of them, so a wrong number of them is its
failure whatever they are.  With as many operands as it takes, it can still fail with a type
mismatch, and some can with a division by zero or with a path that leads nowhere
(`Operator.Fails`).  A tree fails as one of its operations does (`RuleTree.exists_fails`), so the
failures of reading a rule, and of a result that is no scalar, never come from evaluation.
-/

namespace FeatureFlags

/-! ### Texts of errors -/

namespace EvaluationError

/-- The symbol of the operator that an error blames. -/
def symbol? : EvaluationError → Option String
  | .arity operator _ | .typeMismatch operator _ => some operator.symbol
  | _ => none

/-- The text begins with the symbol. -/
theorem message_eq (error : EvaluationError) {symbol : String} (h : error.symbol? = some symbol) :
    ∃ reason, error.message = "Operator '" ++ symbol ++ reason := by
  cases error with
  | arity operator got =>
    obtain rfl := Option.some.inj h
    refine ⟨"' expects " ++ (operator.arity.text ++ (" operands, got " ++ numberText got)), ?_⟩
    delta message
    simp only [String.append_assoc]
  | typeMismatch operator detail =>
    obtain rfl := Option.some.inj h
    refine ⟨"' cannot be applied to " ++ detail.message, ?_⟩
    delta message
    simp only [String.append_assoc]
  | contextLookup | unrecognizedOperation | malformedRule | divisionByZero | nonScalarResult
    | nestingTooDeep => cases h

end EvaluationError

/-! ### Divisions -/

namespace Arithmetic

open Json (ReadsAsZero)

variable {a b : Json} {failure : Failure}

/-- A division fails for its operands or for its divisor. -/
theorem divide_eq_error (h : divide a b = .error failure) :
    (∃ detail, failure = .mismatch detail) ∨ failure = .divisionByZero ∧ ReadsAsZero b := by
  obtain h | ⟨divisor, hdivisor, h⟩ := bind_eq_error_iff.1 h
  · obtain ⟨detail, -, rfl⟩ := mapError_eq_error_iff.1 h
    exact .inl ⟨detail, rfl⟩
  · rw [mapError_eq_ok_iff] at hdivisor
    split at h
    case isTrue hzero =>
      obtain rfl := Except.error.inj h
      exact .inr ⟨rfl, readsAsZero_iff.2 ⟨divisor, hdivisor, hzero⟩⟩
    case isFalse =>
      obtain h | ⟨dividend, -, h⟩ := bind_eq_error_iff.1 h
      all_goals
        obtain ⟨detail, -, rfl⟩ := mapError_eq_error_iff.1 h
        exact .inl ⟨detail, rfl⟩

/-- A remainder fails for its operands too, and for the divisor only if both are numbers. -/
theorem modulo_eq_error (h : modulo a b = .error failure) :
    (∃ detail, failure = .mismatch detail) ∨
      failure = .divisionByZero ∧ ∃ left right, Operand.read a = .ok left ∧
        Operand.read b = .ok right ∧ ReadsAsZero b := by
  obtain h | ⟨left, hleft, h⟩ := bind_eq_error_iff.1 h
  · obtain ⟨detail, -, rfl⟩ := mapError_eq_error_iff.1 h
    exact .inl ⟨detail, rfl⟩
  obtain h | ⟨right, hright, h⟩ := bind_eq_error_iff.1 h
  · obtain ⟨detail, -, rfl⟩ := mapError_eq_error_iff.1 h
    exact .inl ⟨detail, rfl⟩
  rw [mapError_eq_ok_iff] at hleft hright
  have hzero_iff := readsAsZero_iff_of_read hright
  dsimp only at h
  -- two integers have a remainder of their own, with its own check of the divisor
  split at h
  case h_1 =>
    split at h
    case isTrue hzero =>
      obtain rfl := Except.error.inj h
      refine .inr ⟨rfl, _, _, hleft, hright, hzero_iff.2 ?_⟩
      rwa [Operand.toFinite, Finite.isZero_ofInt]
    case isFalse => cases h
  case h_2 =>
    split at h
    case isTrue hzero =>
      obtain rfl := Except.error.inj h
      exact .inr ⟨rfl, left, right, hleft, hright, hzero_iff.2 hzero⟩
    case isFalse =>
      obtain ⟨detail, -, rfl⟩ := mapError_eq_error_iff.1 h
      exact .inl ⟨detail, rfl⟩

theorem modulo_of_readsAsZero {left right : Operand} (ha : Operand.read a = .ok left)
    (hb : Operand.read b = .ok right) (hzero : ReadsAsZero b) :
    modulo a b = .error .divisionByZero := by
  rw [readsAsZero_iff_of_read hb] at hzero
  simp only [modulo, ha, hb, Except.mapError, bind, Except.bind]
  split
  case h_1 m hm n hn =>
    rw [Operand.toFinite, Finite.isZero_ofInt] at hzero
    rw [if_pos hzero]
  case h_2 => rw [if_pos hzero]

end Arithmetic

/-! ### Operators -/

namespace Operator

/-- The failures of an operator, each with what it says of the operands and of the context. -/
inductive Fails (operator : Operator) (operands : List Json) (context : Json) :
    EvaluationError → Prop where
  | arity (h : ¬operator.arity.Accepts operands.length) :
    Fails operator operands context (.arity operator operands.length)
  | typeMismatch (h : operator.arity.Accepts operands.length) (detail : Mismatch) :
    Fails operator operands context (.typeMismatch operator detail)
  | quotientByZero {dividend divisor : Json} (hoperator : operator = .divide)
    (hoperands : operands = [dividend, divisor]) (hzero : divisor.ReadsAsZero) :
    Fails operator operands context .divisionByZero
  | remainderByZero {dividend divisor : Json} {left right : Arithmetic.Operand}
    (hoperator : operator = .modulo) (hoperands : operands = [dividend, divisor])
    (hleft : Arithmetic.Operand.read dividend = .ok left)
    (hright : Arithmetic.Operand.read divisor = .ok right) (hzero : divisor.ReadsAsZero) :
    Fails operator operands context .divisionByZero
  | contextLookup {operand : Json} {path : String} {cause : LookupError}
    (hoperator : operator = .var) (hoperands : operands = [operand])
    (hpath : operand.path = .ok path) (hlookup : context.lookup path = .error cause) :
    Fails operator operands context (.contextLookup cause)

variable {operator : Operator} {operands : List Json} {context : Json} {error : EvaluationError}

theorem blame_eq_error_iff {α : Type} {result : Except Mismatch α} :
    operator.blame result = .error error ↔
      ∃ detail, result = .error detail ∧ .typeMismatch operator detail = error :=
  mapError_eq_error_iff

theorem Fails.of_blame {α : Type} {result : Except Mismatch α}
    (haccepts : operator.arity.Accepts operands.length)
    (h : operator.blame result = .error error) : operator.Fails operands context error := by
  obtain ⟨detail, -, rfl⟩ := blame_eq_error_iff.1 h
  exact .typeMismatch haccepts detail

theorem Fails.of_map_blame {α : Type} {result : Except Mismatch α} {wrap : α → Json}
    (haccepts : operator.arity.Accepts operands.length)
    (h : (operator.blame result).map wrap = .error error) :
    operator.Fails operands context error :=
  .of_blame haccepts (map_eq_error_iff.1 h)

/-- A division fails as the arithmetic does. -/
theorem blameDivision_eq_error {result : Except Arithmetic.Failure Json}
    (h : operator.blameDivision result = .error error) :
    (∃ detail, result = .error (.mismatch detail) ∧ error = .typeMismatch operator detail) ∨
      result = .error .divisionByZero ∧ error = .divisionByZero := by
  obtain ⟨failure, hfailure, rfl⟩ := mapError_eq_error_iff.1 h
  cases failure with
  | mismatch detail => exact .inl ⟨detail, hfailure, rfl⟩
  | divisionByZero => exact .inr ⟨hfailure, rfl⟩

/-- An operator that fails, fails in one of these ways. -/
theorem fails_of_apply (h : operator.apply operands context = .error error) :
    operator.Fails operands context error := by
  by_cases haccepts : operator.arity.Accepts operands.length
  case neg =>
    rw [apply_of_not_accepts haccepts] at h
    obtain rfl := Except.error.inj h
    exact .arity haccepts
  case pos =>
    -- the number of operands being right, the operator decides on their kinds
    have hlength := haccepts
    cases operator with
    | equal | strictEqual | notEqual | strictNotEqual =>
      obtain ⟨a, b, rfl⟩ := List.length_eq_two.1 hlength
      cases h
    | greater | greaterOrEqual | isIn =>
      obtain ⟨a, b, rfl⟩ := List.length_eq_two.1 hlength
      exact .of_map_blame haccepts h
    | less | lessOrEqual =>
      obtain hlength | hlength := hlength
      · obtain ⟨a, b, rfl⟩ := List.length_eq_two.1 hlength
        exact .of_map_blame haccepts h
      · obtain ⟨a, b, c, rfl⟩ := List.length_eq_three.1 hlength
        exact .of_map_blame haccepts h
    | not | log =>
      obtain ⟨a, rfl⟩ := List.length_eq_one_iff.1 hlength
      cases h
    | conditional =>
      obtain ⟨condition, yes, no, rfl⟩ := List.length_eq_three.1 hlength
      cases h
    | and | or | count =>
      rw [apply] at h
      cases h
    | add | multiply =>
      rw [apply] at h
      exact .of_blame haccepts h
    | subtract =>
      obtain hlength | hlength := hlength
      · obtain ⟨a, rfl⟩ := List.length_eq_one_iff.1 hlength
        exact .of_blame haccepts h
      · obtain ⟨a, b, rfl⟩ := List.length_eq_two.1 hlength
        exact .of_blame haccepts h
    | divide =>
      obtain hlength | hlength := hlength
      · obtain ⟨a, rfl⟩ := List.length_eq_one_iff.1 hlength
        cases h
      · obtain ⟨a, b, rfl⟩ := List.length_eq_two.1 hlength
        obtain ⟨detail, -, rfl⟩ | ⟨hfailure, rfl⟩ := blameDivision_eq_error h
        · exact .typeMismatch haccepts detail
        · obtain ⟨_, h⟩ | ⟨-, hzero⟩ := Arithmetic.divide_eq_error hfailure
          · cases h
          · exact .quotientByZero rfl rfl hzero
    | modulo =>
      obtain ⟨a, b, rfl⟩ := List.length_eq_two.1 hlength
      obtain ⟨detail, -, rfl⟩ | ⟨hfailure, rfl⟩ := blameDivision_eq_error h
      · exact .typeMismatch haccepts detail
      · obtain ⟨_, h⟩ | ⟨-, left, right, hleft, hright, hzero⟩ :=
          Arithmetic.modulo_eq_error hfailure
        · cases h
        · exact .remainderByZero rfl rfl hleft hright hzero
    | min | max =>
      obtain ⟨first, rest, rfl⟩ := List.exists_cons_of_length_pos hlength
      exact .of_blame haccepts h
    | cat =>
      rw [apply] at h
      exact .of_map_blame haccepts h
    | var =>
      obtain ⟨operand, rfl⟩ := List.length_eq_one_iff.1 hlength
      obtain h | ⟨path, hpath, h⟩ := bind_eq_error_iff.1 h
      · exact .of_blame haccepts h
      · obtain ⟨cause, hlookup, rfl⟩ := mapError_eq_error_iff.1 h
        exact .contextLookup rfl rfl (blame_eq_ok_iff.1 hpath) hlookup

/-- The number of operands decides on this failure, and it reports the number. -/
theorem apply_eq_arity_iff {other : Operator} {got : Nat} :
    operator.apply operands context = .error (.arity other got) ↔
      ¬operator.arity.Accepts operands.length ∧ other = operator ∧ got = operands.length := by
  constructor
  · intro h
    cases fails_of_apply h with
    | arity hnot => exact ⟨hnot, rfl, rfl⟩
  · rintro ⟨hnot, rfl, rfl⟩
    exact apply_of_not_accepts hnot context

/-- What blames an operator, blames the one that was applied. -/
theorem Fails.symbol_eq {symbol : String} (h : operator.Fails operands context error)
    (hsymbol : error.symbol? = some symbol) : symbol = operator.symbol := by
  cases h with
  | arity | typeMismatch => exact (Option.some.inj hsymbol).symm
  | quotientByZero | remainderByZero | contextLookup => cases hsymbol

/-- What does not blame the operator comes up wherever it can. -/
theorem Fails.apply_eq (h : operator.Fails operands context error)
    (hsymbol : error.symbol? = none) : operator.apply operands context = .error error := by
  cases h with
  | arity | typeMismatch => cases hsymbol
  | quotientByZero hoperator hoperands hzero =>
    rw [hoperator, hoperands, apply, Arithmetic.divide_of_readsAsZero _ hzero]
    rfl
  | remainderByZero hoperator hoperands hleft hright hzero =>
    rw [hoperator, hoperands, apply, Arithmetic.modulo_of_readsAsZero hleft hright hzero]
    rfl
  | contextLookup hoperator hoperands hpath hlookup =>
    rw [hoperator, hoperands, apply, lookUp, hpath]
    simp only [blame, Except.mapError, bind, Except.bind, hlookup]

end Operator

/-! ### Trees -/

namespace RuleTree

variable {context : Json} {error : EvaluationError}

/-- Operands without values have one among them that has none. -/
theorem exists_error_of_evaluateAll {operands : List RuleTree}
    (h : evaluateAll context operands = .error error) :
    ∃ operand ∈ operands, operand.evaluate context = .error error := by
  induction operands with
  | nil => cases h
  | cons first rest ih =>
    rw [evaluateAll_cons, bind_eq_error_iff] at h
    obtain hfirst | ⟨value, -, h⟩ := h
    · exact ⟨first, List.mem_cons_self, hfirst⟩
    · obtain hrest | ⟨values, -, h⟩ := bind_eq_error_iff.1 h
      · obtain ⟨operand, hmem, herror⟩ := ih hrest
        exact ⟨operand, List.mem_cons_of_mem _ hmem, herror⟩
      · cases h

/-- A tree that fails has an operation in it that fails so, on the values of its operands. -/
theorem exists_fails (tree : RuleTree) (h : tree.evaluate context = .error error) :
    ∃ position operator operands values,
      tree.subtree? position = some (.operation operator operands) ∧
      evaluateAll context operands = .ok values ∧ operator.Fails values context error := by
  induction tree using tree_induction with
  | literal value =>
    rw [evaluate] at h
    cases h
  | operation operator operands ih =>
    rw [evaluate_operation] at h
    obtain hoperands | ⟨values, hvalues, happly⟩ := bind_eq_error_iff.1 h
    · -- the failure was there before the operator, in one of the operands
      obtain ⟨operand, hmem, herror⟩ := exists_error_of_evaluateAll hoperands
      obtain ⟨index, hoperand⟩ := exists_subtree?_of_mem operator hmem
      obtain ⟨position, other, others, values, hsubtree, hvalues, hfails⟩ := ih operand hmem herror
      refine ⟨[index] ++ position, other, others, values, ?_, hvalues, hfails⟩
      rw [subtree?_append, hoperand]
      exact hsubtree
    · exact ⟨[], operator, operands, values, rfl, hvalues, Operator.fails_of_apply happly⟩

/-- **Failures are classified**: an operator fails for the number of its operands exactly if it does
not take so many, whatever they are, and reports this number.  Otherwise it fails only in the ways
of `Operator.Fails`: with a type mismatch, or else exactly if it divides by zero or looks up a path
that leads nowhere.  A failure that blames an operator carries the symbol of the one that was
applied, and its text begins with it.  Every failure of a tree is the failure of one of its
operations; so no tree, read from a rule or not, fails with what only reading a rule and checking
its result can complain of. -/
theorem failures_classified (context : Json) :
    (∀ (operator : Operator) (operands : List Json),
      (∀ other got, operator.apply operands context = .error (.arity other got) ↔
        ¬operator.arity.Accepts operands.length ∧ other = operator ∧ got = operands.length) ∧
      (∀ error, operator.apply operands context = .error error →
        operator.Fails operands context error ∧
        ∀ symbol, error.symbol? = some symbol → symbol = operator.symbol ∧
          ∃ reason, error.message = "Operator '" ++ symbol ++ reason) ∧
      ∀ error, error.symbol? = none → operator.Fails operands context error →
        operator.apply operands context = .error error) ∧
    ∀ (tree : RuleTree) (error : EvaluationError), tree.evaluate context = .error error →
      (∃ position operator operands values,
        tree.subtree? position = some (.operation operator operands) ∧
        evaluateAll context operands = .ok values ∧ operator.Fails values context error) ∧
      (∀ symbol, error ≠ .unrecognizedOperation symbol) ∧
      (∀ entries, error ≠ .malformedRule entries) ∧
      error ≠ .nestingTooDeep ∧
      ∀ kind, error ≠ .nonScalarResult kind := by
  refine ⟨fun operator operands => ⟨?_, ?_, ?_⟩, ?_⟩
  · exact fun other got => Operator.apply_eq_arity_iff
  · intro error herror
    have hfails := Operator.fails_of_apply herror
    exact ⟨hfails, fun symbol hsymbol => ⟨hfails.symbol_eq hsymbol, error.message_eq hsymbol⟩⟩
  · exact fun error hsymbol hfails => hfails.apply_eq hsymbol
  · intro tree error herror
    obtain ⟨position, operator, operands, values, hsubtree, hvalues, hfails⟩ :=
      exists_fails tree herror
    refine ⟨⟨position, operator, operands, values, hsubtree, hvalues, hfails⟩, ?_⟩
    cases hfails <;> exact ⟨nofun, nofun, nofun, nofun⟩

/-- No operand of a minimum and four of a comparison; a division by false, whose dividend nobody
looks at, and a remainder, whose dividend is no number; and the division behind an operand of `or`
that decides already. -/
theorem failures_classified_divisions :
    let operands : List Json := [.string "x", .bool false]
    let division : RuleTree := .operation .divide [.literal (.string "x"), .literal (.bool false)]
    let tree : RuleTree := .operation .or [.literal (.bool true), division]
    Operator.min.apply [] .null = .error (.arity .min 0) ∧
    Operator.less.apply (operands ++ operands) .null = .error (.arity .less 4) ∧
    Operator.divide.apply operands .null = .error .divisionByZero ∧
    Operator.modulo.Fails operands .null (.typeMismatch .modulo (.operand .string)) ∧
    ∃ position operator operands values,
      tree.subtree? position = some (.operation operator operands) ∧
      evaluateAll .null operands = .ok values ∧ operator.Fails values .null .divisionByZero := by
  intro operands division tree
  obtain ⟨hoperators, htrees⟩ := failures_classified .null
  have htree : tree.evaluate .null = .error .divisionByZero := rfl
  refine ⟨?_, ?_, ?_, ?_, ?_⟩
  · exact ((hoperators .min []).1 _ _).2 ⟨by decide, rfl, rfl⟩
  · exact ((hoperators .less _).1 _ _).2 ⟨by decide, rfl, rfl⟩
  · exact (hoperators .divide operands).2.2 _ rfl (.quotientByZero rfl rfl .false)
  · exact ((hoperators .modulo operands).2.1 _ rfl).1
  · exact (htrees tree _ htree).1

end RuleTree

end FeatureFlags
