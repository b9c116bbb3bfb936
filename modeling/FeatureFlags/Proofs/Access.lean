import Mathlib.Data.List.Forall2
import FeatureFlags.Proofs.Answering

/-!
Who is let in, and what the others are told.

A header lets a request in exactly if its first value is a word for the scheme, a space and a key
(`Access.Announces`) that the environment has among its keys of an accepted kind.  All others are
told the same: the key is looked at before the body and the flag, and after nothing but the
environment itself (`Service.answer_of_denied`), so nothing about either can be learned without
one.
-/

namespace FeatureFlags

open Http

namespace Access

variable {access : Access} {environment : Environment} {header : List String} {key : String}

/-! ### The header -/

/-- The same character, or the same letter in the other case. -/
def SameLetter (c d : Char) : Prop :=
  c = d ∨ (c.isUpper = true ∧ d.toNat = c.toNat + 32) ∨
    (d.isUpper = true ∧ c.toNat = d.toNat + 32)

/-- A header value in which the key is announced: visible ASCII, spaces and tabs, of which the first
space stands between the scheme and the key. -/
structure Announces (value key : String) : Prop where
  usable : ∀ c ∈ value.toList, c = '\t' ∨ (0x20 ≤ c.toNat ∧ c.toNat ≤ 0x7e)
  split : ∃ scheme : String, value = scheme ++ " " ++ key ∧ ' ' ∉ scheme.toList ∧
    List.Forall₂ SameLetter scheme.toList "bearer".toList
  key_ne : key ≠ ""

theorem isUsableChar_iff (c : Char) :
    isUsableChar c = true ↔ c = '\t' ∨ (0x20 ≤ c.toNat ∧ c.toNat ≤ 0x7e) := by
  simp [isUsableChar, Char.le_def, UInt32.le_iff_toNat_le]

theorem isUpper_iff (c : Char) : c.isUpper = true ↔ 65 ≤ c.toNat ∧ c.toNat ≤ 90 := by
  show decide ('A'.val ≤ c.val ∧ c.val ≤ 'Z'.val) = true ↔ 65 ≤ c.val.toNat ∧ c.val.toNat ≤ 90
  simp [UInt32.le_iff_toNat_le]

theorem toNat_toLower (c : Char) :
    c.toLower.toNat = if c.isUpper = true then c.toNat + 32 else c.toNat := by
  show Char.toNat (if h : _ ∧ _ then ⟨c.val + ('a'.val - 'A'.val), _⟩ else c) = _
  split
  case isTrue h =>
    have hupper : c.isUpper = true := by
      rw [isUpper_iff]
      simpa [UInt32.le_iff_toNat_le] using h
    have hbound : c.val.toNat ≤ 90 := ((isUpper_iff c).1 hupper).2
    have hshift : ('a'.val - 'A'.val).toNat = 32 := rfl
    rw [if_pos hupper]
    show (c.val + ('a'.val - 'A'.val)).toNat = c.val.toNat + 32
    rw [UInt32.toNat_add, hshift]
    exact Nat.mod_eq_of_lt (by omega)
  case isFalse h =>
    have hupper : ¬ c.isUpper = true := by
      rw [isUpper_iff]
      simpa [UInt32.le_iff_toNat_le] using h
    rw [if_neg hupper]

/-- Against a character that is no capital, comparing in lower case is comparing up to case. -/
theorem toLower_eq_iff {c d : Char} (hd : d.isUpper = false) :
    c.toLower = d ↔ SameLetter c d := by
  rw [← Char.toNat_inj, toNat_toLower, SameLetter, ← Char.toNat_inj]
  split
  case isTrue hc =>
    have hbound := (isUpper_iff c).1 hc
    have hother : ¬ (65 ≤ d.toNat ∧ d.toNat ≤ 90) := by
      rw [← isUpper_iff, hd]
      exact Bool.false_ne_true
    simp only [hc, hd, true_and, Bool.false_eq_true, false_and, or_false]
    omega
  case isFalse hc => simp [hc, hd]

theorem map_toLower_eq_iff {word scheme : List Char} (h : ∀ d ∈ scheme, d.isUpper = false) :
    word.map Char.toLower = scheme ↔ List.Forall₂ SameLetter word scheme := by
  induction word generalizing scheme with
  | nil => cases scheme <;> simp
  | cons c word ih =>
    cases scheme with
    | nil => simp
    | cons d scheme =>
      rw [List.map_cons, List.cons.injEq, List.forall₂_cons, toLower_eq_iff (h d (by simp)),
        ih fun other hother => h other (List.mem_cons_of_mem d hother)]

theorem isScheme_iff (word : List Char) :
    isScheme word = true ↔ List.Forall₂ SameLetter word "bearer".toList := by
  rw [isScheme, decide_eq_true_iff]
  exact map_toLower_eq_iff (by simp [← Bool.not_eq_true, isUpper_iff])

/-- A text splits at its first space in one way. -/
theorem split_iff {text scheme key : List Char} :
    text = scheme ++ ' ' :: key ∧ ' ' ∉ scheme ↔
      text.takeWhile (· ≠ ' ') = scheme ∧ text.dropWhile (· ≠ ' ') = ' ' :: key := by
  constructor
  · rintro ⟨rfl, hscheme⟩
    have hall : ∀ c ∈ scheme, (decide (c ≠ ' ')) = true := by
      intro c hc
      exact decide_eq_true fun heq => hscheme (heq ▸ hc)
    rw [List.takeWhile_append_of_pos hall, List.dropWhile_append_of_pos hall]
    simp
  · rintro ⟨rfl, hkey⟩
    refine ⟨?_, fun hmem => ?_⟩
    · rw [← hkey, List.takeWhile_append_dropWhile]
    · have hall := List.all_eq_true.1 (List.all_takeWhile (l := text) (p := (· ≠ ' '))) _ hmem
      simp at hall

/-- What a value announces, in terms of what stands before and behind its first space. -/
theorem announces_iff {value key : String} :
    Announces value key ↔ value.toList.all isUsableChar = true ∧
      isScheme (value.toList.takeWhile (· ≠ ' ')) = true ∧
      value.toList.dropWhile (· ≠ ' ') = ' ' :: key.toList ∧ key.toList ≠ [] := by
  have hnil : key.toList ≠ [] ↔ key ≠ "" := by simp
  constructor
  · rintro ⟨husable, ⟨scheme, rfl, hspace, hscheme⟩, hkey⟩
    have htext : (scheme ++ " " ++ key).toList = scheme.toList ++ ' ' :: key.toList := by simp
    obtain ⟨htake, hdrop⟩ := split_iff.1 ⟨htext, hspace⟩
    refine ⟨?_, ?_, hdrop, hnil.2 hkey⟩
    · exact List.all_eq_true.2 fun c hc => (isUsableChar_iff c).2 (husable c hc)
    · rwa [htake, isScheme_iff]
  · rintro ⟨husable, hscheme, hdrop, hkey⟩
    obtain ⟨htext, hspace⟩ := split_iff.2 ⟨rfl, hdrop⟩
    refine ⟨fun c hc => (isUsableChar_iff c).1 (List.all_eq_true.1 husable c hc),
      ⟨String.ofList (value.toList.takeWhile (· ≠ ' ')), ?_, ?_, ?_⟩, hnil.1 hkey⟩
    · apply String.toList_injective
      rw [String.toList_append, String.toList_append, String.toList_ofList, List.append_assoc]
      exact htext
    · rwa [String.toList_ofList]
    · rwa [String.toList_ofList, ← isScheme_iff]

/-- The key that is read is the one that the first value announces. -/
theorem bearerKey?_eq_some :
    bearerKey? header = some key ↔ ∃ value rest, header = value :: rest ∧ Announces value key := by
  cases header with
  | nil => simp [bearerKey?]
  | cons value rest =>
    have hfirst : (∃ value' rest', value :: rest = value' :: rest' ∧ Announces value' key)
        ↔ Announces value key := by
      constructor
      · rintro ⟨_, _, h, hkey⟩
        obtain ⟨rfl, rfl⟩ := List.cons.inj h
        exact hkey
      · exact fun hkey => ⟨value, rest, rfl, hkey⟩
    rw [hfirst, announces_iff, bearerKey?]
    have hstop := List.head?_dropWhile_not (· ≠ ' ') value.toList
    cases hdrop : value.toList.dropWhile (· ≠ ' ') with
    | nil => simp
    | cons space text =>
      rw [hdrop] at hstop
      obtain rfl : space = ' ' := by simpa using hstop
      have htext : some (String.ofList text) = some key ↔ text = key.toList := by
        rw [Option.some.injEq, ← String.toList_inj, String.toList_ofList]
      rw [Option.ite_none_right_eq_some, htext, List.cons.injEq]
      constructor
      · rintro ⟨⟨husable, hscheme, hne⟩, rfl⟩
        exact ⟨husable, hscheme, ⟨rfl, rfl⟩, hne⟩
      · rintro ⟨husable, hscheme, ⟨-, rfl⟩, hne⟩
        exact ⟨⟨husable, hscheme, hne⟩, rfl⟩

theorem permits_iff :
    access.permits environment key = true ↔
      ∃ scope ∈ access.scopes, (environment.keys scope).contains key = true := by
  rw [permits, List.any_eq_true]

theorem authorize_eq_ok :
    access.authorize environment header = .ok () ↔
      ∃ key, bearerKey? header = some key ∧ access.permits environment key = true := by
  rw [authorize]
  cases bearerKey? header with
  | none => simp
  | some key => cases hpermits : access.permits environment key <;> simp [hpermits]

/-- A key that the environment does not accept lets nobody pass. -/
theorem authorize_ne_ok (hkey : bearerKey? header = some key)
    (hpermits : access.permits environment key = false) :
    access.authorize environment header ≠ .ok () := by
  rw [authorize, hkey]
  simp [hpermits]

/-- Nobody is refused in another way than the others. -/
theorem authorize_of_ne_ok (h : access.authorize environment header ≠ .ok ()) :
    access.authorize environment header = .error .unauthorized := by
  rw [authorize] at h ⊢
  cases hkey : bearerKey? header with
  | none => rfl
  | some key =>
    rw [hkey] at h
    cases hpermits : access.permits environment key with
    | true => simp [hpermits] at h
    | false => simp [hpermits]

/-- What opens the rules opens the evaluation of flags. -/
theorem authorize_mono (h : authorize .serverSideOnly environment header = .ok ()) :
    authorize .serverOrClientSide environment header = .ok () := by
  obtain ⟨key, hkey, hpermits⟩ := authorize_eq_ok.1 h
  obtain ⟨scope, hscope, hcontains⟩ := permits_iff.1 hpermits
  obtain rfl := List.mem_singleton.1 hscope
  exact authorize_eq_ok.2 ⟨key, hkey, permits_iff.2 ⟨.serverSide, List.mem_cons_self .., hcontains⟩⟩

end Access

namespace Service

variable {options options' : Options} {supply supply' : Supply} {request request' : Request}
  {p p' : ServiceState}

/-- The environment that an operation needs a key of, and the kinds of keys that it accepts. -/
def guarded? : Operation → Option (Access × String)
  | .getRules id => some (.serverSideOnly, id)
  | .evaluateFlags id => some (.serverOrClientSide, id)
  | .evaluateFlag id _ => some (.serverOrClientSide, id)
  | _ => none

/-- The request is one for the flags of an environment that the store has and finds, without a key
that the operation accepts. -/
def Denied (options : Options) (p : ServiceState) (request : Request) : Prop :=
  ∃ operation access id environment, routed? options request = some operation ∧
    guarded? operation = some (access, id) ∧
    request.method ≠ "HEAD" ∧ (readsBody operation = true → request.body.length ≤ bodyLimit) ∧
    p.faults.lookup .getEnvironment = none ∧ p.store.environments.get? id = some environment ∧
    access.authorize environment (request.headerValues "authorization") ≠ .ok ()

/-- An action that starts with a request goes on with the reply that it gets. -/
theorem run_store_of_reply {α : Type} {sent : Store.Request} {reply : sent.Reply}
    (hreply : (p.call supply sent).1 = .ok reply) (resume : sent.Reply → Action α) :
    (Action.store sent resume).run supply p
      = (resume reply).run supply (p.call supply sent).2 := by
  rw [Action.store, Program.run, hreply]

/-- Without a key, what would come next is not looked at. -/
theorem run_authorized_of_denied {access : Access} {id : String} {environment : Environment}
    {header : List String} (hfaults : p.faults.lookup .getEnvironment = none)
    (hexists : p.store.environments.get? id = some environment)
    (hdenied : access.authorize environment header ≠ .ok ())
    (resume : Environment → Action Response) :
    ((respond (Evaluation.authorized access id header resume)).run supply p).1
      = errorResponse .unauthorized := by
  have hfound : (p.call supply (.getEnvironment id)).1 = .ok environment := by
    rw [ServiceState.call, Store.Request.method, hfaults]
    simp only [Store.perform, Store.getEnvironment, hexists, Store.unchanged, Except.map]
  have hrun := run_store_of_reply hfound fun (found : Environment) =>
    Action.require (access.authorize found header) fun _ => resume found
  rw [Access.authorize_of_ne_ok hdenied] at hrun
  rw [respond, Program.run_map, Evaluation.authorized, hrun]
  rfl

/-- A denied request is told that it is unauthorized, and nothing else. -/
theorem answer_of_denied (h : Denied options p request) (supply : Supply) :
    (answer options supply request p).1 = errorResponse .unauthorized := by
  obtain ⟨operation, access, id, environment, hrouted, hguarded, hmethod, hbody, hfaults, hexists,
    hdenied⟩ := h
  have hop : operation ≠ .samples := by
    rintro rfl
    cases hguarded
  obtain ⟨counters, hanswer⟩ := answer_of_routed supply p hrouted hop
  rw [hanswer, performWithin_eq hbody, trimmed, if_neg hmethod]
  cases operation with
  | getRules | evaluateFlags | evaluateFlag =>
    obtain ⟨rfl, rfl⟩ := Prod.mk.inj (Option.some.inj hguarded)
    exact run_authorized_of_denied hfaults hexists hdenied _
  | _ => cases hguarded

/-- **Keys decide**: a request passes exactly if the first value of its header announces a key that
the environment has, of a kind that is accepted, and whatever opens the rules also opens the
evaluation of flags.  Any two requests that do not pass get the same response, whatever else they
ask for and whatever the services hold. -/
theorem keys_decide_access :
    (∀ (access : Access) (environment : Environment) (header : List String),
      access.authorize environment header = .ok () ↔
        ∃ value rest key, header = value :: rest ∧ Access.Announces value key ∧
          ∃ scope ∈ access.scopes, (environment.keys scope).contains key = true) ∧
    (∀ (environment : Environment) (header : List String),
      Access.authorize .serverSideOnly environment header = .ok () →
        Access.authorize .serverOrClientSide environment header = .ok ()) ∧
    ∀ (options options' : Options) (supply supply' : Supply) (request request' : Request)
      (p p' : ServiceState), Denied options p request → Denied options' p' request' →
        (answer options supply request p).1 = (answer options' supply' request' p').1 := by
  refine ⟨fun access environment header => ?_, fun _ _ => Access.authorize_mono, ?_⟩
  · rw [Access.authorize_eq_ok]
    constructor
    · rintro ⟨key, hkey, hpermits⟩
      obtain ⟨value, rest, rfl, hannounces⟩ := Access.bearerKey?_eq_some.1 hkey
      exact ⟨value, rest, key, rfl, hannounces, Access.permits_iff.1 hpermits⟩
    · rintro ⟨value, rest, key, rfl, hannounces, hscopes⟩
      exact ⟨key, Access.bearerKey?_eq_some.2 ⟨value, rest, rfl, hannounces⟩,
        Access.permits_iff.2 hscopes⟩
  · intro options options' supply supply' request request' p p' hdenied hdenied'
    rw [answer_of_denied hdenied supply, answer_of_denied hdenied' supply']

/-- A request for the rules without a header, and one to evaluate a flag that does not exist, with a
key that does not exist and a body that is not JSON.  Where the environment has keys, one for
servers opens the rules, and with them the evaluation of flags.  One for clients opens the
evaluation, with the scheme in another case, and is told the same as the others when it asks for the
rules, even though a key for servers stands in a second header. -/
theorem keys_decide_access_shopTest :
    let options : Options := ⟨10, true⟩
    let rules : Request := ⟨"GET", "/iiiii/get_rules", [], []⟩
    let flag : Request := ⟨"POST", "/iiiii/dark", [("Authorization", "Bearer k")], [0x7b]⟩
    let environments := ServiceState.shopTest.store.environments.mapValues fun _ e =>
      { e with
        serverSideKeys := SortedMap.empty.insert "s" ⟨"backend", ⟨0, 0⟩⟩
        clientSideKeys := SortedMap.empty.insert "c" ⟨"web", ⟨0, 0⟩⟩ }
    let keyed : ServiceState := { ServiceState.shopTest with store.environments := environments }
    let clientRules : Request := { rules with
      headers := [("Authorization", "bEARER c"), ("Authorization", "Bearer s")] }
    Denied options .shopTest rules ∧ Denied options .shopTest flag ∧
      (answer options Supply.counting rules .shopTest).1
        = (answer options Supply.counting flag .shopTest).1 ∧
      (∃ environment, environments.get? "iiiii" = some environment ∧
        Access.authorize .serverSideOnly environment ["Bearer s"] = .ok () ∧
        Access.authorize .serverOrClientSide environment ["Bearer s"] = .ok () ∧
        Access.authorize .serverOrClientSide environment ["bEARER c", "Bearer s"] = .ok ()) ∧
      Denied options keyed clientRules ∧
      (answer options Supply.counting clientRules keyed).1
        = (answer options Supply.counting rules .shopTest).1 := by
  intro options rules flag environments keyed clientRules
  have hkeyless : (ServiceState.shopTest.store.environments.get? "iiiii").map
      (Access.permits .serverOrClientSide · "k") = some false := by
    decide +kernel
  obtain ⟨environment, henvironment, hpermits⟩ := Option.map_eq_some_iff.1 hkeyless
  have hrules : Denied options .shopTest rules :=
    ⟨.getRules "iiiii", .serverSideOnly, "iiiii", environment, by decide +kernel, rfl, by decide,
      by decide, rfl, henvironment, nofun⟩
  have hflag : Denied options .shopTest flag :=
    ⟨.evaluateFlag "iiiii" "dark", .serverOrClientSide, "iiiii", environment, by decide +kernel,
      rfl, by decide, by decide, rfl, henvironment,
      Access.authorize_ne_ok (by decide +kernel : _ = some "k") hpermits⟩
  have hkeys : (environments.get? "iiiii").map (fun e => (e.serverSideKeys.contains "s",
      e.clientSideKeys.contains "c", Access.permits .serverSideOnly e "c"))
        = some (true, true, false) := by
    decide +kernel
  obtain ⟨environment', henvironment', hkeys⟩ := Option.map_eq_some_iff.1 hkeys
  obtain ⟨hserver, hkeys⟩ := Prod.mk.inj hkeys
  obtain ⟨hclient, hother⟩ := Prod.mk.inj hkeys
  have hopens : Access.authorize .serverSideOnly environment' ["Bearer s"] = .ok () :=
    (keys_decide_access.1 _ _ _).2 ⟨"Bearer s", [], "s", rfl,
      Access.announces_iff.2 (by decide +kernel), .serverSide, by decide, hserver⟩
  have hevaluates : Access.authorize .serverOrClientSide environment' ["bEARER c", "Bearer s"]
      = .ok () :=
    (keys_decide_access.1 _ _ _).2 ⟨"bEARER c", ["Bearer s"], "c", rfl,
      Access.announces_iff.2 (by decide +kernel), .clientSide, by decide, hclient⟩
  have hclientRules : Denied options keyed clientRules :=
    ⟨.getRules "iiiii", .serverSideOnly, "iiiii", environment', by decide +kernel, rfl, by decide,
      by decide, rfl, henvironment',
      Access.authorize_ne_ok (by decide +kernel : _ = some "c") hother⟩
  exact ⟨hrules, hflag, keys_decide_access.2.2 _ _ _ _ _ _ _ _ hrules hflag,
    ⟨environment', henvironment', hopens, keys_decide_access.2.1 _ _ hopens, hevaluates⟩,
    hclientRules, keys_decide_access.2.2 _ _ _ _ _ _ _ _ hclientRules hrules⟩

end Service

end FeatureFlags
