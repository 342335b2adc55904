/-
Schema objects of OpenAPI 3.0 and the values that satisfy them: `type`, `properties`, `required`, `items`,
`enum`, the format `uuid`, `minLength`, `maxLength` and `pattern`, with their standard meaning. `matches
source` is a regular expression of the runtime that has no flags.
-/
import PaymentOrchestration.Lib.Joi

namespace PaymentOrchestration.Lib

/-- A schema object; `any` is `{}`. An `enum` that is absent is empty, and so is a list `required`. -/
inductive OpenApi where
  | any
  | object (properties : List (JsString × OpenApi)) (required : List JsString)
  | array (items : OpenApi)
  | number (integer : Bool) (enum : List (Json JsString))
  | boolean
  | string (enum : List (Json JsString)) (uuid : Bool) (minLength maxLength : Option Rat) (pattern : Option JsString)

namespace OpenApi

/-- The value is one of the `enum`. -/
def inEnum (enum : List (Json JsString)) (v : Json JsString) : Bool := enum.isEmpty || enum.any fun a => Json.Same a v

/-- A text of the format `uuid`. -/
def isUuid (s : JsString) : Bool := s.ascii?.any Uuid.isCanonical

section Valid

variable (matchesPattern : JsString → JsString → Bool)

mutual

/-- The value satisfies the schema. The length of a text is the number of its characters. -/
def valid : OpenApi → Json JsString → Bool
  | .any, _ => true
  | .object properties required, v =>
    match v with
    | .obj members => required.all (fun k => (Json.lookup k members).isSome) && validMembers properties members
    | _ => false
  | .array items, v =>
    match v with
    | .arr vs => vs.all (valid items)
    | _ => false
  | .number integer enum, v =>
    match v with
    | .num n => (!integer || n.int?.isSome) && inEnum enum v
    | _ => false
  | .boolean, v =>
    match v with
    | .bool _ => true
    | _ => false
  | .string enum uuid minLength maxLength pattern, v =>
    match v with
    | .str s => inEnum enum v && (!uuid || isUuid s) && minLength.all (fun n => n ≤ (s.codePoints : Rat)) &&
        maxLength.all (fun n => (s.codePoints : Rat) ≤ n) && pattern.all fun source => matchesPattern source s
    | _ => false
termination_by structural s => s

def validMembers : List (JsString × OpenApi) → List (JsString × Json JsString) → Bool
  | [], _ => true
  | (k, s) :: properties, members => (Json.lookup k members).all (valid s) && validMembers properties members
termination_by structural properties => properties

end

variable {matchesPattern} {members : List (JsString × Json JsString)}

theorem validMembers_iff {properties : List (JsString × OpenApi)} :
    validMembers matchesPattern properties members = true ↔
    ∀ p ∈ properties, ∀ v, Json.lookup p.1 members = some v → p.2.valid matchesPattern v = true := by
  induction properties with
  | nil => simp [validMembers]
  | cons p ps ih =>
    obtain ⟨k, s⟩ := p
    simp [validMembers, ih, Option.all_eq_true]

theorem valid_object {properties : List (JsString × OpenApi)} {required : List JsString} {v : Json JsString} :
    (object properties required).valid matchesPattern v = true ↔ ∃ members, v = .obj members ∧
      (∀ k ∈ required, (Json.lookup k members).isSome) ∧
      ∀ p ∈ properties, ∀ w, Json.lookup p.1 members = some w → p.2.valid matchesPattern w = true := by
  cases v <;> simp [valid, validMembers_iff]

theorem valid_array {items : OpenApi} {vs : List (Json JsString)} :
    (array items).valid matchesPattern (.arr vs) = true ↔ ∀ v ∈ vs, items.valid matchesPattern v = true := by
  simp [valid]

theorem valid_string {enum : List (Json JsString)} {uuid : Bool} {minLength maxLength : Option Rat}
    {pattern : Option JsString}
    {s : JsString} : (string enum uuid minLength maxLength pattern).valid matchesPattern (.str s) = true ↔
      inEnum enum (.str s) = true ∧ (uuid = true → isUuid s = true) ∧
      (∀ n, minLength = some n → n ≤ (s.codePoints : Rat)) ∧
      (∀ n, maxLength = some n → (s.codePoints : Rat) ≤ n) ∧ ∀ source, pattern = some source →
      matchesPattern source s = true := by
  cases uuid <;> simp [valid, Option.all_eq_true, and_assoc]

end Valid

end OpenApi

end PaymentOrchestration.Lib
