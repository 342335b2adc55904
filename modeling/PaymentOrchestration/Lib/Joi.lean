/-
Schemas of Joi 17: objects, arrays, strings, numbers and booleans, with the values they list and the rules
they have. `accepts` is what a schema accepts without conversion, `describe` what its `describe()` returns.
Regular expressions are those of the runtime: `test source flags` is what `RegExp.prototype.test` says of a
string. Values with a member `__proto__` are left out: the copy that Joi makes of an object takes that
member for its prototype.
-/
import PaymentOrchestration.Lib.Json
import PaymentOrchestration.Lib.JsString
import PaymentOrchestration.Lib.JsonSchema

namespace PaymentOrchestration.Lib

/-! ## Equality of values -/

namespace Json

variable {σ ν : Type} [DecidableEq σ] [DecidableEq ν]

mutual

/-- Equality, members in order. -/
def beq : Json σ ν → Json σ ν → Bool
  | .null, .null => true
  | .bool a, .bool b => a = b
  | .num m, .num n => m = n
  | .str s, .str t => s = t
  | .arr vs, .arr ws => beqItems vs ws
  | .obj ms, .obj ns => beqMembers ms ns
  | _, _ => false
termination_by structural v => v

def beqItems : List (Json σ ν) → List (Json σ ν) → Bool
  | [], [] => true
  | v :: vs, w :: ws => beq v w && beqItems vs ws
  | _, _ => false
termination_by structural vs => vs

def beqMembers : List (σ × Json σ ν) → List (σ × Json σ ν) → Bool
  | [], [] => true
  | (k, v) :: ms, (l, w) :: ns => k = l && beq v w && beqMembers ms ns
  | _, _ => false
termination_by structural ms => ms

end

theorem beqItems_iff : ∀ {vs ws : List (Json σ ν)}, (∀ v ∈ vs, ∀ w, beq v w = true ↔ v = w) →
    (beqItems vs ws = true ↔ vs = ws)
  | [], [], _ => by simp [beqItems]
  | [], _ :: _, _ => by simp [beqItems]
  | _ :: _, [], _ => by simp [beqItems]
  | v :: vs, w :: ws, h => by
    have htail : beqItems vs ws = true ↔ vs = ws := beqItems_iff fun x hx => h x (List.mem_cons_of_mem _ hx)
    rw [beqItems, Bool.and_eq_true, h v List.mem_cons_self, htail, List.cons.injEq]

theorem beqMembers_iff : ∀ {ms ns : List (σ × Json σ ν)}, (∀ m ∈ ms, ∀ w, beq m.2 w = true ↔ m.2 = w) →
    (beqMembers ms ns = true ↔ ms = ns)
  | [], [], _ => by simp [beqMembers]
  | [], (_, _) :: _, _ => by simp [beqMembers]
  | (_, _) :: _, [], _ => by simp [beqMembers]
  | (k, v) :: ms, (l, w) :: ns, h => by
    have hv : beq v w = true ↔ v = w := h (k, v) List.mem_cons_self w
    have htail : beqMembers ms ns = true ↔ ms = ns := beqMembers_iff fun x hx => h x (List.mem_cons_of_mem _ hx)
    rw [beqMembers, Bool.and_eq_true, Bool.and_eq_true, decide_eq_true_iff, hv, htail, List.cons.injEq, Prod.mk.injEq]

theorem beq_iff (v w : Json σ ν) : beq v w = true ↔ v = w := by
  induction v using Json.ind generalizing w with
  | null => cases w <;> simp [beq]
  | bool b => cases w <;> simp [beq]
  | num n => cases w <;> simp [beq]
  | str s => cases w <;> simp [beq]
  | arr items ih =>
    cases w with
    | arr ws => rw [beq, beqItems_iff ih, Json.arr.injEq]
    | _ => simp [beq]
  | obj members ih =>
    cases w with
    | obj ns => rw [beq, beqMembers_iff ih, Json.obj.injEq]
    | _ => simp [beq]

instance : DecidableEq (Json σ ν) := fun v w => decidable_of_iff _ (beq_iff v w)

instance {σ : Type} [LinearOrder σ] (v w : Json σ ν) : Decidable (Same v w) :=
  inferInstanceAs (Decidable (v.sorted = w.sorted))

end Json

/-! ## Texts -/

namespace JsString

/-- The number of characters: a surrogate pair is one. -/
def codePoints : JsString → Nat
  | [] => 0
  | [_] => 1
  | hi :: lo :: s => if isHighSurrogate hi && isLowSurrogate lo then codePoints s + 1 else codePoints (lo :: s) + 1

theorem codePoints_le_length : ∀ s : JsString, codePoints s ≤ s.length
  | [] => Nat.le_refl 0
  | [_] => Nat.le_refl 1
  | hi :: lo :: s => by
    unfold codePoints
    split
    · have := codePoints_le_length s
      simp only [List.length_cons]
      omega
    · have := codePoints_le_length (lo :: s)
      simp only [List.length_cons] at this ⊢
      omega

/-- A text of ASCII characters. -/
def ascii? (s : JsString) : Option String :=
  if s.all (fun u => u.toNat < 128) then some (String.ofList (s.map fun u => Char.ofNat u.toNat)) else none

theorem ascii?_eq_some {s : JsString} {t : String} :
    s.ascii? = some t ↔ s = utf16 t ∧ ∀ c ∈ t.toList, c.toNat < 128 := by
  have hchar : ∀ {n : Nat}, n < 128 → (Char.ofNat n).toNat = n := fun {n} h =>
    by rw [Char.ofNat, dif_pos (.inl (by omega))]; rfl
  constructor
  · intro h
    unfold ascii? at h
    split at h
    swap
    · cases h
    rename_i hall
    rw [List.all_eq_true] at hall
    obtain rfl := Option.some.inj h
    rw [utf16, String.toList_ofList]
    refine ⟨?_, fun c hc => ?_⟩
    · clear h
      induction s with
      | nil => rfl
      | cons u s ih =>
        have hu : u.toNat < 128 := of_decide_eq_true (hall u List.mem_cons_self)
        have hunit : utf16Char (Char.ofNat u.toNat) = [u] := by
          rw [utf16Char, hchar hu, if_pos (by omega)]
          simp
        rw [List.map_cons, List.flatMap_cons, hunit, ← ih fun v hv => hall v (List.mem_cons_of_mem u hv)]
        rfl
    · obtain ⟨u, hu, rfl⟩ := List.mem_map.1 hc
      have hu := of_decide_eq_true (hall u hu)
      rw [hchar hu]
      exact hu
  · rintro ⟨rfl, hall⟩
    have hchars : ∀ cs : List Char, (∀ c ∈ cs, c.toNat < 128) →
        (cs.flatMap utf16Char).all (fun u => u.toNat < 128) = true ∧
          (cs.flatMap utf16Char).map (fun u => Char.ofNat u.toNat) = cs := by
      intro cs
      induction cs with
      | nil => intro _; exact ⟨rfl, rfl⟩
      | cons c cs ih =>
        intro hcs
        obtain ⟨hc, hcs⟩ := List.forall_mem_cons.1 hcs
        obtain ⟨ih1, ih2⟩ := ih hcs
        have hunit : utf16Char c = [UInt16.ofNat c.toNat] := by rw [utf16Char, if_pos (by omega)]
        have hnat : (UInt16.ofNat c.toNat).toNat = c.toNat := toNat_ofNat (by omega)
        rw [List.flatMap_cons, hunit, List.singleton_append, List.all_cons, List.map_cons,
          ih1, ih2, hnat, Char.ofNat_toNat]
        exact ⟨by simp [hc], rfl⟩
    obtain ⟨hsmall, hback⟩ := hchars t.toList hall
    rw [ascii?, utf16, if_pos hsmall, hback, String.ofList_toList]

end JsString

/-- The rational a number is. -/
def Number.toRat (x : Number) : Rat :=
  let e := x.point - x.digits.length
  let q : Rat := mkRat (natOf x.digits * 10 ^ e.toNat) (10 ^ (-e).toNat)
  if x.neg then -q else q

theorem Number.toRat_of_int? {x : Number} {z : Int} (h : x.int? = some z) : x.toRat = z := by
  unfold int? at h
  split at h
  swap
  · cases h
  rename_i hpoint
  obtain rfl := Option.some.inj h
  have he : (-(x.point - x.digits.length)).toNat = 0 := by omega
  rw [toRat]
  simp only [he]
  rw [Nat.pow_zero, Rat.mkRat_one]
  split
  · push_cast; rfl
  · rfl

namespace Joi

/-! ## Schemas -/

inductive Presence
  | optional
  | required
deriving DecidableEq

/-- The flags of a regular expression. -/
inductive RegExpFlag
  | d
  | g
  | i
  | m
  | s
  | u
  | v
  | y
deriving DecidableEq

def RegExpFlag.letter : RegExpFlag → UInt16
  | .d => 0x64
  | .g => 0x67
  | .i => 0x69
  | .m => 0x6D
  | .s => 0x73
  | .u => 0x75
  | .v => 0x76
  | .y => 0x79

inductive StringRule
  | min (limit : Nat)
  | max (limit : Nat)
  | pattern (source : JsString) (flags : List RegExpFlag)
  | guid

inductive NumberRule
  | integer
  | positive
  | min (limit : Rat)
  | max (limit : Rat)

/-- A rule for the number of items or members. -/
inductive SizeRule
  | min (limit : Nat)
  | max (limit : Nat)

/-- What every schema has: its flags `presence` and `only`, and the values that `valid` and `allow` have listed. -/
structure Base where
  presence : Option Presence := none
  only : Bool := false
  allow : List (Json JsString) := []

/-- A schema. With `unknown`, an object accepts members that are not among its keys, as `object()` without keys does. -/
inductive Schema where
  | object (base : Base) (keys : List (JsString × Schema)) (unknown : Bool) (rules : List SizeRule)
  | array (base : Base) (items : List Schema) (rules : List SizeRule)
  | string (base : Base) (rules : List StringRule)
  | number (base : Base) (rules : List NumberRule)
  | boolean (base : Base)

namespace Schema

def base : Schema → Base
  | .object base .. | .array base .. | .string base _ | .number base _ | .boolean base => base

def isRequired (s : Schema) : Bool := s.base.presence = some .required

/-- Induction with the hypothesis for every key and every item. -/
theorem ind {P : Schema → Prop}
    (object : ∀ base keys unknown rules, (∀ k ∈ keys, P k.2) → P (.object base keys unknown rules))
    (array : ∀ base items rules, (∀ s ∈ items, P s) → P (.array base items rules))
    (string : ∀ base rules, P (.string base rules)) (number : ∀ base rules, P (.number base rules))
    (boolean : ∀ base, P (.boolean base)) (s : Schema) : P s :=
  @Schema.rec P (fun ks => ∀ k ∈ ks, P k.2) (fun ss => ∀ s ∈ ss, P s) (fun k => P k.2)
    object array string number boolean
    (by simp) (fun _ _ hk hks => List.forall_mem_cons.2 ⟨hk, hks⟩)
    (by simp) (fun _ _ hs hss => List.forall_mem_cons.2 ⟨hs, hss⟩)
    (fun _ _ hs => hs) s

end Schema

/-! ## Acceptance -/

/-- The value is one of those that `valid` and `allow` have listed. -/
def Base.lists (base : Base) (v : Json JsString) : Bool := base.allow.any fun a => Json.Same a v

def StringRule.holds (test : JsString → List RegExpFlag → JsString → Bool) (s : JsString) : StringRule → Bool
  | .min limit => limit ≤ s.length
  | .max limit => s.length ≤ limit
  | .pattern source flags => test source flags s
  | .guid => s.ascii?.any fun t => (Uuid.guid? t).isSome

def NumberRule.holds (n : Number) : NumberRule → Bool
  | .integer => n.int?.isSome
  | .positive => 0 < n.toRat
  | .min limit => limit ≤ n.toRat
  | .max limit => n.toRat ≤ limit

def SizeRule.holds (size : Nat) : SizeRule → Bool
  | .min limit => limit ≤ size
  | .max limit => size ≤ limit

/-- An empty string is refused, unless its minimum is 0. -/
def emptyAllowed (rules : List StringRule) : Bool :=
  match rules.findSome? fun | .min limit => some limit | _ => none with
  | some limit => limit = 0
  | none => false

/-- A number within the range of the safe integers. -/
def isSafe (n : Number) : Bool := -9007199254740991 ≤ n.toRat ∧ n.toRat ≤ 9007199254740991

def proto : JsString := JsString.units "__proto__".toList

/-- The value of a key: the key `__proto__` has the object that objects inherit from. -/
def member? (k : JsString) (members : List (JsString × Json JsString)) : Option (Json JsString) :=
  (Json.lookup k members).or (if k = proto then some (.obj []) else none)

/-- The schemas of the items, each with whether it is required: an item takes the first required schema that
accepts it and that no item has taken yet, or is accepted by any of the schemas. In the end, every required
schema is taken. -/
def takes (v : Json JsString) : List (Json JsString → Bool) → Option (List (Json JsString → Bool))
  | [] => none
  | accepted :: requireds => if accepted v then some requireds else (takes v requireds).map (accepted :: ·)

def acceptsItems (schemas : List (Bool × (Json JsString → Bool))) :
    List (Json JsString → Bool) → List (Json JsString) → Bool
  | requireds, [] => requireds.isEmpty
  | requireds, v :: vs =>
    match takes v requireds with
    | some requireds => acceptsItems schemas requireds vs
    | none => (schemas.isEmpty || schemas.any fun s => s.2 v) && acceptsItems schemas requireds vs

section Accepts

variable (test : JsString → List RegExpFlag → JsString → Bool)

mutual

/-- The schema accepts the value, with `convert: false`. -/
def accepts : Schema → Json JsString → Bool
  | .object base keys unknown rules, v =>
    base.lists v || !base.only &&
      match v with
      | .obj members => acceptsKeys keys members && (unknown || members.all fun m => keys.any fun k => k.1 = m.1) &&
          rules.all (·.holds members.length)
      | _ => false
  | .array base items rules, v =>
    base.lists v || !base.only &&
      match v with
      | .arr vs =>
        let schemas := acceptors items
        acceptsItems schemas ((schemas.filter (·.1)).map (·.2)) vs && rules.all (·.holds vs.length)
      | _ => false
  | .string base rules, v =>
    base.lists v || !base.only &&
      match v with
      | .str s => (s ≠ [] || emptyAllowed rules) && rules.all (·.holds test s)
      | _ => false
  | .number base rules, v =>
    base.lists v || !base.only &&
      match v with
      | .num n => isSafe n && rules.all (·.holds n)
      | _ => false
  | .boolean base, v =>
    base.lists v || !base.only &&
      match v with
      | .bool _ => true
      | _ => false
termination_by structural s => s

def acceptsKeys : List (JsString × Schema) → List (JsString × Json JsString) → Bool
  | [], _ => true
  | (k, s) :: keys, members =>
    (match member? k members with
      | some v => accepts s v
      | none => !s.isRequired) && acceptsKeys keys members
termination_by structural keys => keys

def acceptors : List Schema → List (Bool × (Json JsString → Bool))
  | [] => []
  | s :: ss => (s.isRequired, accepts s) :: acceptors ss
termination_by structural ss => ss

end

attribute [local simp] acceptsKeys accepts acceptors

variable {test} {base : Base} {v : Json JsString}

/-- Every key has a value that its schema accepts, or none and is not required. -/
theorem acceptsKeys_iff {keys : List (JsString × Schema)} {members : List (JsString × Json JsString)} :
    acceptsKeys test keys members = true ↔ ∀ k ∈ keys, (∀ w, member? k.1 members = some w → accepts test k.2 w = true) ∧
      (member? k.1 members = none → k.2.isRequired = false) := by
  induction keys with
  | nil => simp [acceptsKeys]
  | cons k keys ih =>
    rw [acceptsKeys, Bool.and_eq_true, ih, List.forall_mem_cons]
    refine and_congr_left fun _ => ?_
    cases member? k.1 members <;> simp

theorem takes_spec {f : Json JsString → Bool} :
    ∀ {requireds rest : List (Json JsString → Bool)}, takes v requireds = some rest →
    (∃ g ∈ requireds, g v = true) ∧ (f ∈ rest → f ∈ requireds)
  | g :: requireds, rest, h => by
    unfold takes at h
    split at h
    · rename_i hg
      cases h
      exact ⟨⟨g, List.mem_cons_self, hg⟩, List.mem_cons_of_mem g⟩
    · obtain ⟨rest', hrest, rfl⟩ := Option.map_eq_some_iff.1 h
      obtain ⟨⟨g', hg', hv⟩, hsub⟩ := takes_spec (f := f) hrest
      refine ⟨⟨g', List.mem_cons_of_mem g hg', hv⟩, fun hf => ?_⟩
      rcases List.mem_cons.1 hf with rfl | hf
      · exact List.mem_cons_self
      · exact List.mem_cons_of_mem g (hsub hf)

/-- Every item is accepted by one of the schemas, where there are any. -/
theorem acceptsItems_spec {schemas : List (Bool × (Json JsString → Bool))} {vs : List (Json JsString)} :
    ∀ {requireds : List (Json JsString → Bool)}, (∀ f ∈ requireds, ∃ s ∈ schemas, s.2 = f) →
      acceptsItems schemas requireds vs = true → schemas = [] ∨ ∀ w ∈ vs, ∃ s ∈ schemas, s.2 w = true := by
  induction vs with
  | nil => intros; right; simp
  | cons w vs ih =>
    intro requireds hreq h
    rw [acceptsItems] at h
    -- either a required schema takes the item, or one of all schemas accepts it
    split at h
    · rename_i rest htakes
      obtain ⟨⟨g, hg, hgw⟩, -⟩ := takes_spec (f := fun _ => true) htakes
      obtain ⟨s, hs, rfl⟩ := hreq g hg
      have hrest : ∀ f ∈ rest, ∃ s ∈ schemas, s.2 = f := fun f hf => hreq f ((takes_spec htakes).2 hf)
      exact (ih hrest h).imp_right fun hvs => List.forall_mem_cons.2 ⟨⟨s, hs, hgw⟩, hvs⟩
    · rw [Bool.and_eq_true, Bool.or_eq_true, List.isEmpty_iff, List.any_eq_true] at h
      rcases h.1 with hnil | hany
      · exact .inl hnil
      · exact (ih hreq h.2).imp_right fun hvs => List.forall_mem_cons.2 ⟨hany, hvs⟩

theorem acceptors_eq : ∀ items : List Schema, acceptors test items = items.map fun s => (s.isRequired, accepts test s)
  | [] => by rw [acceptors, List.map_nil]
  | s :: ss => by rw [acceptors, acceptors_eq ss, List.map_cons]

/-! What each kind of schema accepts beside the values it lists. -/

theorem accepts_object {keys : List (JsString × Schema)} {unknown : Bool} {rules : List SizeRule}
    (h : accepts test (.object base keys unknown rules) v = true) (hlist : base.lists v = false) :
    ∃ members, v = .obj members ∧ acceptsKeys test keys members = true := by
  cases v with
  | obj members =>
    simp only [accepts, hlist, Bool.false_or, Bool.and_eq_true] at h
    exact ⟨members, rfl, h.2.1.1⟩
  | _ => simp [accepts, hlist] at h

theorem accepts_array {items : List Schema} {rules : List SizeRule}
    (h : accepts test (.array base items rules) v = true) (hlist : base.lists v = false) :
    ∃ vs, v = .arr vs ∧ (items = [] ∨ ∀ w ∈ vs, ∃ s ∈ items, accepts test s w = true) := by
  cases v with
  | arr vs =>
    simp only [accepts, hlist, Bool.false_or, Bool.and_eq_true, acceptors_eq] at h
    have hreq : ∀ f ∈ ((items.map fun s => (s.isRequired, accepts test s)).filter (·.1)).map (·.2),
        ∃ s ∈ items.map fun s => (s.isRequired, accepts test s), s.2 = f := by
      intro f hf
      obtain ⟨s, hs, rfl⟩ := List.mem_map.1 hf
      exact ⟨s, List.mem_of_mem_filter hs, rfl⟩
    refine ⟨vs, rfl, (acceptsItems_spec hreq h.2.1).imp List.map_eq_nil_iff.1 fun hall w hw => ?_⟩
    obtain ⟨_, hmem, hsw⟩ := hall w hw
    obtain ⟨s, hs, rfl⟩ := List.mem_map.1 hmem
    exact ⟨s, hs, hsw⟩
  | _ => simp [accepts, hlist] at h

theorem accepts_string {rules : List StringRule} (h : accepts test (.string base rules) v = true)
    (hlist : base.lists v = false) : base.only = false ∧ ∃ s, v = .str s ∧ ∀ r ∈ rules, r.holds test s = true := by
  cases v with
  | str s =>
    simp only [accepts, hlist, Bool.false_or, Bool.and_eq_true, Bool.not_eq_true'] at h
    exact ⟨h.1, s, rfl, List.all_eq_true.1 h.2.2⟩
  | _ => simp [accepts, hlist] at h

theorem accepts_number {rules : List NumberRule} (h : accepts test (.number base rules) v = true)
    (hlist : base.lists v = false) : base.only = false ∧ ∃ n, v = .num n ∧ ∀ r ∈ rules, r.holds n = true := by
  cases v with
  | num n =>
    simp only [accepts, hlist, Bool.false_or, Bool.and_eq_true, Bool.not_eq_true'] at h
    exact ⟨h.1, n, rfl, List.all_eq_true.1 h.2.2⟩
  | _ => simp [accepts, hlist] at h

theorem accepts_boolean (h : accepts test (.boolean base) v = true) (hlist : base.lists v = false) :
    ∃ b, v = .bool b := by
  cases v with
  | bool b => exact ⟨b, rfl⟩
  | _ => simp [accepts, hlist] at h

end Accepts

/-! ## Description -/

structure RuleDescription where
  name : String
  limit : Option Rat := none
  regex : Option JsString := none

/-- What `describe()` returns. A field that is absent is empty here. -/
inductive Description where
  | mk (type : String) (presence : Option Presence) (only : Bool) (allow : List (Json JsString))
      (rules : List RuleDescription) (keys : List (JsString × Description)) (items : List Description)

namespace Description

def type : Description → String | mk type .. => type
def presence : Description → Option Presence | mk _ presence .. => presence
def only : Description → Bool | mk _ _ only .. => only
def allow : Description → List (Json JsString) | mk _ _ _ allow .. => allow
def rules : Description → List RuleDescription | mk _ _ _ _ rules .. => rules
def keys : Description → List (JsString × Description) | mk _ _ _ _ _ keys _ => keys
def items : Description → List Description | mk _ _ _ _ _ _ items => items

end Description

def StringRule.describe : StringRule → RuleDescription
  | .min limit => { name := "min", limit := some limit }
  | .max limit => { name := "max", limit := some limit }
  | .pattern source flags =>
    { name := "pattern", regex := some (0x2F :: (source ++ 0x2F :: flags.map RegExpFlag.letter)) }
  | .guid => { name := "guid" }

def NumberRule.describe : NumberRule → RuleDescription
  | .integer => { name := "integer" }
  | .positive => { name := "sign" }
  | .min limit => { name := "min", limit := some limit }
  | .max limit => { name := "max", limit := some limit }

def SizeRule.describe : SizeRule → RuleDescription
  | .min limit => { name := "min", limit := some limit }
  | .max limit => { name := "max", limit := some limit }

/-- A listed value that is an object or an array is wrapped. -/
def describeValue : Json JsString → Json JsString
  | .arr vs => .obj [(JsString.units "value".toList, .arr vs)]
  | .obj ms => .obj [(JsString.units "value".toList, .obj ms)]
  | v => v

mutual

def describe : Schema → Description
  | .object base keys _ rules =>
    .mk "object" base.presence base.only (base.allow.map describeValue) (rules.map SizeRule.describe)
      (describeKeys keys) []
  | .array base items rules =>
    .mk "array" base.presence base.only (base.allow.map describeValue) (rules.map SizeRule.describe)
      [] (describeItems items)
  | .string base rules =>
    .mk "string" base.presence base.only (base.allow.map describeValue) (rules.map StringRule.describe) [] []
  | .number base rules =>
    .mk "number" base.presence base.only (base.allow.map describeValue) (rules.map NumberRule.describe) [] []
  | .boolean base => .mk "boolean" base.presence base.only (base.allow.map describeValue) [] [] []
termination_by structural s => s

/-- The keys become the members of a plain object, which gets no member `__proto__` by assignment. -/
def describeKeys : List (JsString × Schema) → List (JsString × Description)
  | [] => []
  | (k, s) :: keys => if k = proto then describeKeys keys else (k, describe s) :: describeKeys keys
termination_by structural keys => keys

def describeItems : List Schema → List Description
  | [] => []
  | s :: ss => describe s :: describeItems ss
termination_by structural ss => ss

end

theorem mem_describeKeys {k : JsString} {d : Description} {keys : List (JsString × Schema)}
    (h : (k, d) ∈ describeKeys keys) : ∃ s, (k, s) ∈ keys ∧ k ≠ proto ∧ d = describe s := by
  induction keys with
  | nil => simp [describeKeys] at h
  | cons key keys ih =>
    obtain ⟨l, s⟩ := key
    have hrest (h : (k, d) ∈ describeKeys keys) : ∃ s', (k, s') ∈ (l, s) :: keys ∧ k ≠ proto ∧ d = describe s' := by
      obtain ⟨s', hs', hk⟩ := ih h
      exact ⟨s', List.mem_cons_of_mem _ hs', hk⟩
    unfold describeKeys at h
    split at h
    · exact hrest h
    · rename_i hl
      rcases List.mem_cons.1 h with heq | h
      · cases heq
        exact ⟨s, List.mem_cons_self, hl, rfl⟩
      · exact hrest h

theorem describe_presence (s : Schema) : (describe s).presence = s.base.presence := by cases s <;> rfl

end Joi

end PaymentOrchestration.Lib
