/-
The package openapi-kit: the schema of a request in the published contract is converted from what
`describe()` says of its Joi schema. The contract and the validation of requests are two readers of one
schema; `joiToOpenApiSchema_permits` says for which schemas and values the contract permits what the
validation accepts.
-/
import PaymentOrchestration.Lib.OpenApi

namespace PaymentOrchestration.OpenApiKit

open Lib Lib.Joi

/-! ## joi-to-openapi.ts -/

def isRequired (description : Description) : Bool := description.presence = some .required

def getValidValues (description : Description) : List (Json JsString) :=
  description.allow.filter fun value => value ≠ .str []

def hasRule (description : Description) (ruleName : String) : Bool :=
  description.rules.any fun rule => rule.name = ruleName

def getRule (description : Description) (ruleName : String) : Option RuleDescription :=
  description.rules.find? fun rule => rule.name = ruleName

/-- `regex.match(/^\/([\s\S]*)\/[a-z]*$/)?.[1]` -/
def matchSource : JsString → Option JsString
  | [] => none
  | u :: regex =>
    if u = 0x2F then
      match regex.reverse.dropWhile fun u => 0x61 ≤ u.toNat ∧ u.toNat ≤ 0x7A with
      | [] => none
      | w :: source => if w = 0x2F then some source.reverse else none
    else none

def getPattern (description : Description) : Option JsString :=
  match (getRule description "pattern").bind (·.regex) with
  | none | some [] => none
  | some regex => some ((matchSource regex).getD regex)

mutual

/-- The properties of the keys and the keys that are required. -/
def convertObjectDescription : List (JsString × Description) → List (JsString × OpenApi) × List JsString
  | [] => ([], [])
  | (key, child) :: keys =>
    let rest := convertObjectDescription keys
    ((key, convertJoiDescription child) :: rest.1, if isRequired child then key :: rest.2 else rest.2)
termination_by structural keys => keys

def convertFirst : List Description → OpenApi
  | [] => .any
  | item :: _ => convertJoiDescription item
termination_by structural items => items

def convertJoiDescription : Description → OpenApi
  | .mk type presence only allow rules keys items =>
    let description := Description.mk type presence only allow rules keys items
    let validValues := getValidValues description
    if type = "object" then
      let object := convertObjectDescription keys
      .object object.1 object.2
    else if type = "array" then .array (convertFirst items)
    else if type = "number" then .number (hasRule description "integer") validValues
    else if type = "boolean" then .boolean
    else .string validValues (hasRule description "guid" || hasRule description "uuid")
      ((getRule description "min").bind (·.limit)) ((getRule description "max").bind (·.limit)) (getPattern description)
termination_by structural description => description

end

def joiToOpenApiSchema (schema : Schema) : OpenApi := convertJoiDescription (describe schema)

/-! ## generate-openapi-paths.ts -/

inductive ParameterLocation
  | path
  | query
  | header
deriving DecidableEq

structure Parameter where
  name : JsString
  location : ParameterLocation
  required : Bool
  schema : OpenApi

def createParameters (schema : Option Schema) (location : ParameterLocation) : List Parameter :=
  match schema with
  | none => []
  | some schema => (describe schema).keys.map fun (name, child) =>
    { name := name
      location := location
      required := location = .path || child.presence = some .required
      schema := convertJoiDescription child }

/-- A required body of the schema. -/
def createRequestBody (schema : Option Schema) : Option OpenApi := schema.map joiToOpenApiSchema

/-! ## What is made of each kind of schema -/

theorem matchSource_regex (source : JsString) (flags : List RegExpFlag) :
    matchSource (0x2F :: (source ++ 0x2F :: flags.map RegExpFlag.letter)) = some source := by
  have hletters : ∀ u ∈ (flags.map RegExpFlag.letter).reverse, (decide (0x61 ≤ u.toNat ∧ u.toNat ≤ 0x7A)) = true := by
    intro u hu
    obtain ⟨flag, -, rfl⟩ := List.mem_map.1 (List.mem_reverse.1 hu)
    cases flag <;> decide
  have hdrop : (source ++ 0x2F :: flags.map RegExpFlag.letter).reverse.dropWhile
      (fun u => decide (0x61 ≤ u.toNat ∧ u.toNat ≤ 0x7A)) = 0x2F :: source.reverse := by
    rw [List.reverse_append, List.reverse_cons, List.append_assoc, List.dropWhile_append_of_pos hletters]
    rfl
  simp only [matchSource, if_true, hdrop, List.reverse_reverse]

/-- The source and the flags of a rule for a pattern. -/
def patternOf : StringRule → Option (JsString × List RegExpFlag)
  | .pattern source flags => some (source, flags)
  | _ => none

theorem getPattern_describe (base : Base) (rules : List StringRule) :
    getPattern (describe (.string base rules)) = (rules.findSome? patternOf).map Prod.fst := by
  have hrule : getRule (describe (.string base rules)) "pattern" =
      (rules.findSome? patternOf).map fun p => (StringRule.pattern p.1 p.2).describe := by
    change List.find? _ (rules.map StringRule.describe) = _
    induction rules with
    | nil => rfl
    | cons r rules ih =>
      rw [List.map_cons, List.find?_cons, List.findSome?_cons, ih]
      cases r <;> rfl
  rw [getPattern, hrule]
  cases rules.findSome? patternOf with
  | none => rfl
  | some p => simp [StringRule.describe, matchSource_regex]

theorem getRule_describe {base : Base} {rules : List StringRule} {name : String} {limit : Rat}
    (h : (getRule (describe (.string base rules)) name).bind (·.limit) = some limit) :
    ∃ r ∈ rules, r.describe.name = name ∧ r.describe.limit = some limit := by
  obtain ⟨rule, hrule, hlimit⟩ := Option.bind_eq_some_iff.1 h
  obtain ⟨r, hr, rfl⟩ := List.mem_map.1 (List.mem_of_find?_eq_some hrule)
  exact ⟨r, hr, by simpa using List.find?_some hrule, hlimit⟩

theorem guid_of_hasRule {base : Base} {rules : List StringRule} (h : (hasRule (describe (.string base rules)) "guid" ||
    hasRule (describe (.string base rules)) "uuid") = true) : .guid ∈ rules := by
  rw [Bool.or_eq_true] at h
  rcases h with h | h
  all_goals
    obtain ⟨rule, hrule, hname⟩ := List.any_eq_true.1 h
    obtain ⟨r, hr, rfl⟩ := List.mem_map.1 hrule
    cases r with
    | guid => exact hr
    | _ => simp [StringRule.describe] at hname

theorem convertObjectDescription_eq (keys : List (JsString × Description)) : convertObjectDescription keys =
    (keys.map fun k => (k.1, convertJoiDescription k.2), (keys.filter fun k => isRequired k.2).map (·.1)) := by
  induction keys with
  | nil => rfl
  | cons k keys ih =>
    rw [convertObjectDescription, ih, List.filter_cons]
    cases isRequired k.2 <;> rfl

theorem isRequired_describe (s : Schema) : isRequired (describe s) = s.isRequired := by
  rw [isRequired, describe_presence, Schema.isRequired]

section Converted

variable {keys : List (JsString × Schema)} {k : JsString}

theorem mem_properties {o : OpenApi} (h : (k, o) ∈ (convertObjectDescription (describeKeys keys)).1) :
    ∃ s, (k, s) ∈ keys ∧ k ≠ proto ∧ o = joiToOpenApiSchema s := by
  rw [convertObjectDescription_eq] at h
  obtain ⟨⟨k', d⟩, hmem, heq⟩ := List.mem_map.1 h
  obtain ⟨rfl, rfl⟩ := Prod.mk.inj heq
  obtain ⟨s, hs, hk, rfl⟩ := mem_describeKeys hmem
  exact ⟨s, hs, hk, rfl⟩

theorem mem_required (h : k ∈ (convertObjectDescription (describeKeys keys)).2) :
    ∃ s, (k, s) ∈ keys ∧ k ≠ proto ∧ s.isRequired = true := by
  rw [convertObjectDescription_eq] at h
  obtain ⟨⟨k', d⟩, hmem, rfl⟩ := List.mem_map.1 h
  obtain ⟨hmem, hreq⟩ := List.mem_filter.1 hmem
  obtain ⟨s, hs, hk, rfl⟩ := mem_describeKeys hmem
  exact ⟨s, hs, hk, isRequired_describe s ▸ hreq⟩

theorem requestKey {members : List (JsString × Json JsString)} (hk : k ≠ proto) :
    member? k members = Json.lookup k members := by
  rw [member?, if_neg hk, Option.or_none]

end Converted

/-! ## The contract permits what the validation accepts -/

section Permits

variable (test : JsString → List RegExpFlag → JsString → Bool)

/-- The value satisfies what the schema is converted to. -/
def Permits (s : Schema) (v : Json JsString) : Prop :=
  (joiToOpenApiSchema s).valid (fun source => test source []) v = true

/-- The values listed are all values and none of them is the empty text, or no other than that is listed. -/
def Enumerates (base : Base) : Prop :=
  base.only = true ∧ .str [] ∉ base.allow ∨ ∀ a ∈ base.allow, a = .str []

/-- Schemas that OpenAPI can express: every value listed is of the schema's type and meets its rules, no text or
number is listed beside others, an array has one schema for its items, and the flags of a pattern let no more texts
through. -/
inductive Translated : Schema → Prop
  | object {base keys unknown rules}
      (listed : ∀ v, base.lists v = true → ∃ members, v = .obj members ∧ acceptsKeys test keys members = true)
      (nested : ∀ k ∈ keys, Translated k.2) : Translated (.object base keys unknown rules)
  | array {base items rules}
      (listed : ∀ v, base.lists v = true →
        ∃ vs, v = .arr vs ∧ (items = [] ∨ ∀ w ∈ vs, ∃ s ∈ items, accepts test s w = true))
      (single : items.length ≤ 1) (nested : ∀ s ∈ items, Translated s) : Translated (.array base items rules)
  | string {base rules}
      (listed : ∀ v, base.lists v = true → ∃ s, v = .str s ∧ ∀ r ∈ rules, r.holds test s = true)
      (enumerates : Enumerates base)
      (flags : ∀ source flags, rules.findSome? patternOf = some (source, flags) →
        ∀ s, test source flags s = true → test source [] s = true) : Translated (.string base rules)
  | number {base rules}
      (listed : ∀ v, base.lists v = true → ∃ n, v = .num n ∧ ∀ r ∈ rules, r.holds n = true)
      (enumerates : Enumerates base) : Translated (.number base rules)
  | boolean {base} (listed : ∀ v, base.lists v = true → ∃ b, v = .bool b) : Translated (.boolean base)

end Permits

/-- Values that Joi and OpenAPI read alike: identifiers are spelled as RFC 4122 does, a text that is long enough in
code units is so in characters, and no object has a member `__proto__`. -/
inductive Spelled : Schema → Json JsString → Prop
  | object {base keys unknown rules members} (plain : ∀ m ∈ members, m.1 ≠ proto)
      (nested : ∀ k ∈ keys, ∀ w, Json.lookup k.1 members = some w → Spelled k.2 w) :
      Spelled (.object base keys unknown rules) (.obj members)
  | array {base items rules vs} (nested : ∀ s ∈ items, ∀ v ∈ vs, Spelled s v) :
      Spelled (.array base items rules) (.arr vs)
  | string {base rules s} (guid : .guid ∈ rules → OpenApi.isUuid s = true)
      (min : ∀ limit, .min limit ∈ rules → limit ≤ s.codePoints) : Spelled (.string base rules) (.str s)
  | number {base rules n} : Spelled (.number base rules) (.num n)
  | boolean {base b} : Spelled (.boolean base) (.bool b)

section Permits

variable {test : JsString → List RegExpFlag → JsString → Bool} {base : Base}

theorem Base.lists_self {a : Json JsString} (h : a ∈ base.allow) : base.lists a = true :=
  List.any_eq_true.2 ⟨a, h, decide_eq_true (Json.Same.refl a)⟩

/-- What holds of the values listed and of those accepted besides holds of every value accepted, which is one
listed if others are not accepted. -/
theorem Base.of_accepted {v : Json JsString} {P : Prop} (hlisted : base.lists v = true → P)
    (hother : base.lists v = false → base.only = false ∧ P) : (base.only = true → base.lists v = true) ∧ P := by
  cases hl : base.lists v with
  | true => exact ⟨fun _ => rfl, hlisted hl⟩
  | false =>
    obtain ⟨honly, h⟩ := hother hl
    exact ⟨fun h' => absurd (honly.symm.trans h') (by simp), h⟩

/-- The `enum` refuses no value that is listed, nor any other where others are accepted. -/
theorem Enumerates.inEnum (h : Enumerates base) (hplain : ∀ a ∈ base.allow, describeValue a = a) {v : Json JsString}
    (hv : base.only = true → base.lists v = true) :
    OpenApi.inEnum ((base.allow.map describeValue).filter fun value => value ≠ .str []) v = true := by
  rw [OpenApi.inEnum, Bool.or_eq_true]
  rcases h with ⟨honly, hempty⟩ | h
  · -- the value is the same as one of those listed, which is kept
    obtain ⟨a, ha, hsame⟩ := List.any_eq_true.1 (hv honly)
    have hne : a ≠ .str [] := fun heq => hempty (heq ▸ ha)
    have hmem : a ∈ (base.allow.map describeValue).filter fun value => value ≠ .str [] :=
      List.mem_filter.2 ⟨List.mem_map.2 ⟨a, ha, hplain a ha⟩, decide_eq_true hne⟩
    exact .inr (List.any_eq_true.2 ⟨a, hmem, hsame⟩)
  · refine .inl (List.isEmpty_iff.2 (List.filter_eq_nil_iff.2 fun w hw => ?_))
    obtain ⟨a, ha, rfl⟩ := List.mem_map.1 hw
    rw [h a ha]
    simp [describeValue]

theorem permits_object {keys : List (JsString × Schema)} {unknown : Bool} {rules : List SizeRule}
    {members : List (JsString × Json JsString)} (h : acceptsKeys test keys members = true)
    (hkeys : ∀ k ∈ keys, ∀ w, Json.lookup k.1 members = some w → accepts test k.2 w = true → Permits test k.2 w) :
    Permits test (.object base keys unknown rules) (.obj members) := by
  rw [acceptsKeys_iff] at h
  refine OpenApi.valid_object.2 ⟨members, rfl, fun k hk => ?_, fun (k, o) ho w hw => ?_⟩
  · obtain ⟨s, hs, hproto, hreq⟩ := mem_required hk
    have habsent := (h (k, s) hs).2
    rw [requestKey hproto, hreq] at habsent
    exact Option.isSome_iff_ne_none.2 fun hnone => absurd (habsent hnone) (by simp)
  · obtain ⟨s, hs, hproto, rfl⟩ := mem_properties ho
    exact hkeys (k, s) hs w hw ((h (k, s) hs).1 w (requestKey hproto ▸ hw))

theorem permits_array {items : List Schema} {rules : List SizeRule} {vs : List (Json JsString)}
    (hsingle : items.length ≤ 1)
    (h : items = [] ∨ ∀ v ∈ vs, ∃ s ∈ items, Permits test s v) : Permits test (.array base items rules) (.arr vs) := by
  refine OpenApi.valid_array.2 fun v hv => ?_
  match items, hsingle, h with
  | [], _, _ => rfl
  | [s], _, .inr h =>
    obtain ⟨s', hs', hv'⟩ := h v hv
    cases List.mem_singleton.1 hs'
    exact hv'

theorem permits_string {rules : List StringRule} {s : JsString}
    (henum : OpenApi.inEnum ((base.allow.map describeValue).filter fun value => value ≠ .str []) (.str s) = true)
    (hrules : ∀ r ∈ rules, r.holds test s = true) (hguid : .guid ∈ rules → OpenApi.isUuid s = true)
    (hmin : ∀ limit, .min limit ∈ rules → limit ≤ s.codePoints)
    (hflags : ∀ source flags, rules.findSome? patternOf = some (source, flags) →
      test source flags s = true → test source [] s = true) :
    Permits test (.string base rules) (.str s) := by
  refine OpenApi.valid_string.2
    ⟨henum, fun huuid => ?_, fun n hn => ?_, fun n hn => ?_, fun source hsource => ?_⟩
  · exact hguid (guid_of_hasRule huuid)
  · obtain ⟨r, hr, hname, hlimit⟩ := getRule_describe hn
    cases r with
    | min limit =>
      cases hlimit
      exact_mod_cast hmin limit hr
    | _ => simp [StringRule.describe] at hname
  · obtain ⟨r, hr, hname, hlimit⟩ := getRule_describe hn
    cases r with
    | max limit =>
      cases hlimit
      -- a text has at most as many characters as code units
      have hlength : s.length ≤ limit := of_decide_eq_true (hrules _ hr)
      exact_mod_cast (JsString.codePoints_le_length s).trans hlength
    | _ => simp [StringRule.describe] at hname
  · obtain ⟨⟨source', flags⟩, hfirst, rfl⟩ :=
      Option.map_eq_some_iff.1 ((getPattern_describe base rules).symm.trans hsource)
    obtain ⟨r, hr, hpattern⟩ := List.exists_of_findSome?_eq_some hfirst
    cases r with
    | pattern _ _ =>
      cases hpattern
      exact hflags _ _ hfirst (hrules _ hr)
    | _ => cases hpattern

theorem permits_number {rules : List NumberRule} {n : Number}
    (henum : OpenApi.inEnum ((base.allow.map describeValue).filter fun value => value ≠ .str []) (.num n) = true)
    (hrules : ∀ r ∈ rules, r.holds n = true) : Permits test (.number base rules) (.num n) := by
  have hinteger : (hasRule (describe (.number base rules)) "integer" = true → n.int?.isSome = true) := by
    intro h
    obtain ⟨rule, hrule, hname⟩ := List.any_eq_true.1 h
    obtain ⟨r, hr, rfl⟩ := List.mem_map.1 hrule
    cases r with
    | integer => exact hrules _ hr
    | _ => simp [NumberRule.describe] at hname
  refine Bool.and_eq_true_iff.2 ⟨?_, henum⟩
  rw [Bool.or_eq_true, Bool.not_eq_true']
  exact (Bool.eq_false_or_eq_true _).symm.imp_right hinteger

theorem permits_of_accepts {s : Schema} (hs : Translated test s) {v : Json JsString} (h : accepts test s v = true)
    (hv : Spelled s v) : Permits test s v := by
  induction s using Schema.ind generalizing v with
  | object base keys unknown rules ih =>
    cases hs with | object hlisted hnested =>
    obtain ⟨members, rfl, hkeys⟩ : ∃ members, v = .obj members ∧ acceptsKeys test keys members = true := by
      cases hl : base.lists v with
      | true => exact hlisted v hl
      | false => exact accepts_object h hl
    cases hv with | object _ hv =>
    exact permits_object hkeys fun k hk w hw hacc => ih k hk (hnested k hk) hacc (hv k hk w hw)
  | array base items rules ih =>
    cases hs with | array hlisted hsingle hnested =>
    obtain ⟨vs, rfl, hitems⟩ : ∃ vs, v = .arr vs ∧ (items = [] ∨ ∀ w ∈ vs, ∃ s ∈ items, accepts test s w = true) := by
      cases hl : base.lists v with
      | true => exact hlisted v hl
      | false => exact accepts_array h hl
    cases hv with | array hv =>
    refine permits_array hsingle (hitems.imp_right fun hall w hmem => ?_)
    obtain ⟨s, hs, hacc⟩ := hall w hmem
    exact ⟨s, hs, ih s hs (hnested s hs) hacc (hv s hs w hmem)⟩
  | string base rules =>
    cases hs with | string hlisted henum hflags =>
    obtain ⟨honly, s, rfl, hrules⟩ := Base.of_accepted (hlisted v) (accepts_string h)
    have hplain : ∀ a ∈ base.allow, describeValue a = a := by
      intro a ha
      obtain ⟨s, rfl, -⟩ := hlisted a (Base.lists_self ha)
      rfl
    cases hv with | string hguid hmin =>
    exact permits_string (henum.inEnum hplain honly) hrules hguid hmin
      fun source flags hfirst => hflags source flags hfirst s
  | number base rules =>
    cases hs with | number hlisted henum =>
    obtain ⟨honly, n, rfl, hrules⟩ := Base.of_accepted (hlisted v) (accepts_number h)
    have hplain : ∀ a ∈ base.allow, describeValue a = a := by
      intro a ha
      obtain ⟨n, rfl, -⟩ := hlisted a (Base.lists_self ha)
      rfl
    exact permits_number (henum.inEnum hplain honly) hrules
  | boolean base =>
    cases hs with | boolean hlisted =>
    obtain ⟨b, rfl⟩ : ∃ b, v = .bool b := by
      cases hl : base.lists v with
      | true => exact hlisted v hl
      | false => exact accepts_boolean h hl
    rfl

/-- A parameter that is marked required is a path parameter, or a request without it is refused, unless its
members are listed. -/
theorem rejects_of_required {s : Schema} {location : ParameterLocation} {p : Parameter}
    (hp : p ∈ createParameters (some s) location)
    (hreq : p.required = true) : location = .path ∨ ∀ members, s.base.lists (.obj members) = false →
      Json.lookup p.name members = none → accepts test s (.obj members) = false := by
  rw [or_iff_not_imp_left]
  intro hpath members hl hlack
  obtain ⟨⟨name, child⟩, hmem, rfl⟩ := List.mem_map.1 hp
  have hchild : child.presence = some .required := by simpa [hpath] using hreq
  cases s with
  | object base keys unknown rules =>
    obtain ⟨s, hs, hname, rfl⟩ := mem_describeKeys hmem
    rw [describe_presence] at hchild
    by_contra hacc
    obtain ⟨_, heq, hkeys⟩ := accepts_object (Bool.not_eq_false _ ▸ hacc) hl
    cases heq
    have habsent := (acceptsKeys_iff.1 hkeys (name, s) hs).2 ((requestKey hname).trans hlack)
    rw [Schema.isRequired, hchild] at habsent
    cases habsent
  | _ => cases hmem

end Permits

/-! ## The schemas of the routes -/

def text (s : String) : JsString := JsString.units s.toList

def correlationIdHeaderSchema : Schema :=
  .string { presence := some .optional } [.min 1, .max 128, .pattern (text "^[!-~]+$") []]

/-- The key that authenticates a request: `x-api-key` at the gateway, `x-internal-token` at the payment service. -/
def keyHeader (name : String) : JsString × Schema := (text name, .string { presence := some .required } [])

def idempotencyKeyHeader : JsString × Schema :=
  (text "idempotency-key", .string { presence := some .required } [.min 8, .max 128])

def correlationIdHeader : JsString × Schema := (text "x-correlation-id", correlationIdHeaderSchema)

/-- The headers of `create` and of `capture`. -/
def commandHeaders (name : String) : Schema :=
  .object {} [keyHeader name, idempotencyKeyHeader, correlationIdHeader] true []

def getByIdHeaders (name : String) : Schema := .object {} [keyHeader name, correlationIdHeader] true []

def paymentIdParams : Schema := .object {} [(text "paymentId", .string { presence := some .required } [.guid])] false []

def currencies : List (Json JsString) := ["TRY", "USD", "EUR"].map fun c => .str (text c)

def createBody : Schema :=
  .object {} [(text "merchantId", .string { presence := some .required } [.guid]),
    (text "amountMinor", .number { presence := some .required } [.integer, .positive, .max 1000000000000]),
    (text "currency", .string { presence := some .required, only := true, allow := currencies } [])] false []

/-- The schemas of all requests, at the gateway or at the payment service. -/
def requestSchemas (name : String) : List Schema :=
  [commandHeaders name, getByIdHeaders name, paymentIdParams, createBody]

section Routes

variable (test : JsString → List RegExpFlag → JsString → Bool)

theorem translated_object {keys : List (JsString × Schema)} (unknown : Bool) (h : ∀ k ∈ keys, Translated test k.2) :
    Translated test (.object {} keys unknown []) :=
  .object (fun _ hl => by simp [Base.lists] at hl) h

theorem translated_text {presence : Option Presence} {rules : List StringRule}
    (hflags : ∀ source flags, rules.findSome? patternOf = some (source, flags) → flags = []) :
    Translated test (.string { presence := presence } rules) :=
  .string (fun _ hl => by simp [Base.lists] at hl) (.inr (by simp)) fun source flags h s hs =>
    hflags source flags h ▸ hs

theorem translated_currency :
    Translated test (.string { presence := some .required, only := true, allow := currencies } []) := by
  refine .string (fun v hl => ?_) (.inl ⟨rfl, by decide +kernel⟩) fun source flags h => by cases h
  obtain ⟨a, ha, hsame⟩ := List.any_eq_true.1 hl
  obtain ⟨c, -, rfl⟩ := List.mem_map.1 ha
  exact ⟨text c, Json.same_str.1 (of_decide_eq_true hsame), by simp⟩

/-- Every schema of the routes is one that OpenAPI can express. -/
theorem requestSchemas_translated (name : String) : ∀ s ∈ requestSchemas name, Translated test s := by
  have hkey : Translated test (keyHeader name).2 := translated_text test fun _ _ h => by cases h
  have hidempotency : Translated test idempotencyKeyHeader.2 := translated_text test fun _ _ h => by cases h
  have hcorrelation : Translated test correlationIdHeader.2 := translated_text test fun _ _ h => by cases h; rfl
  have hguid : Translated test (.string { presence := some .required } [.guid]) :=
    translated_text test fun _ _ h => by cases h
  have hamount : Translated test (.number { presence := some .required } [.integer, .positive, .max 1000000000000]) :=
    .number (fun _ hl => by simp [Base.lists] at hl) (.inr (by simp))
  simp only [requestSchemas, List.forall_mem_cons, List.not_mem_nil, false_implies, implies_true, and_true]
  refine ⟨translated_object test true ?_, translated_object test true ?_, translated_object test false ?_,
    translated_object test false ?_⟩
  all_goals simp only [List.forall_mem_cons, List.not_mem_nil, false_implies, implies_true, and_true]
  · exact ⟨hkey, hidempotency, hcorrelation⟩
  · exact ⟨hkey, hcorrelation⟩
  · exact hguid
  · exact ⟨hguid, hamount, translated_currency test⟩

end Routes

/-! ## Contract and validation -/

/-- What the validation accepts, the contract permits, for schemas that OpenAPI can express and values that
both read alike. Apart from path parameters, a parameter that is marked required is one that the validation
requires. -/
theorem joiToOpenApiSchema_permits (test : JsString → List RegExpFlag → JsString → Bool) (s : Schema) :
    (Translated test s → ∀ v, accepts test s v = true → Spelled s v → Permits test s v) ∧
    ∀ location, ∀ p ∈ createParameters (some s) location, p.required = true → location = .path ∨
      ∀ members, (∀ m ∈ members, m.1 ≠ proto) → s.base.lists (.obj members) = false →
      Json.lookup p.name members = none →
        accepts test s (.obj members) = false := by
  refine ⟨fun hs v h hv => permits_of_accepts hs h hv, fun location p hp hreq => ?_⟩
  exact (rejects_of_required hp hreq).imp_right fun h members _ => h members

namespace Sample

/-- `RegExp.prototype.test`, for the patterns `^[!-~]+$` and `^a$`. -/
def test (source : JsString) (flags : List RegExpFlag) (s : JsString) : Bool :=
  if source = text "^[!-~]+$" then s ≠ [] && s.all (fun u => 0x21 ≤ u.toNat ∧ u.toNat ≤ 0x7E)
  else source = text "^a$" && (s = text "a" || RegExpFlag.i ∈ flags && s = text "A")

def headers : List (JsString × Json JsString) :=
  [(text "x-api-key", .str (text "key")), (text "idempotency-key", .str (text "create-0001")),
    (text "x-correlation-id", .str (text "c1"))]

def body : List (JsString × Json JsString) :=
  [(text "merchantId", .str (text "00000000-0000-4000-8000-000000000001")),
    (text "amountMinor", .num (Number.ofInt 1250)), (text "currency", .str (text "TRY"))]

theorem headers_spelled : Spelled (commandHeaders "x-api-key") (.obj headers) := by
  refine .object (by decide) fun k hk w hw => ?_
  simp only [List.mem_cons, List.not_mem_nil, or_false] at hk
  rcases hk with rfl | rfl | rfl
  · have hkey : Json.lookup (keyHeader "x-api-key").1 headers = some (.str (text "key")) := by decide +kernel
    obtain rfl := Option.some.inj (hkey.symm.trans hw)
    exact .string (by simp) (by simp)
  · have hkey : Json.lookup idempotencyKeyHeader.1 headers = some (.str (text "create-0001")) := by decide +kernel
    obtain rfl := Option.some.inj (hkey.symm.trans hw)
    exact .string (by simp) (by simp; decide)
  · have hkey : Json.lookup correlationIdHeader.1 headers = some (.str (text "c1")) := by decide +kernel
    obtain rfl := Option.some.inj (hkey.symm.trans hw)
    exact .string (by simp) (by simp; decide)

theorem body_spelled : Spelled createBody (.obj body) := by
  refine .object (by decide) fun k hk w hw => ?_
  simp only [List.mem_cons, List.not_mem_nil, or_false] at hk
  rcases hk with rfl | rfl | rfl
  · have hkey : Json.lookup (text "merchantId") body = some (.str (text "00000000-0000-4000-8000-000000000001")) := by
      decide +kernel
    obtain rfl := Option.some.inj (hkey.symm.trans hw)
    exact .string (fun _ => by decide +kernel) (by simp)
  · have hkey : Json.lookup (text "amountMinor") body = some (.num (Number.ofInt 1250)) := by decide +kernel
    obtain rfl := Option.some.inj (hkey.symm.trans hw)
    exact .number
  · have hkey : Json.lookup (text "currency") body = some (.str (text "TRY")) := by decide +kernel
    obtain rfl := Option.some.inj (hkey.symm.trans hw)
    exact .string (by simp) (by simp)

/-- A text of two code units that is one character. -/
def astral : JsString := [0xD83D, 0xDE00]

end Sample

theorem joiToOpenApiSchema_permits_create : Permits Sample.test (commandHeaders "x-api-key") (.obj Sample.headers) ∧
    Permits Sample.test createBody (.obj Sample.body) ∧
    accepts Sample.test (commandHeaders "x-api-key") (.obj []) = false := by
  have hmem : commandHeaders "x-api-key" ∈ requestSchemas "x-api-key" ∧ createBody ∈ requestSchemas "x-api-key" := by
    simp [requestSchemas]
  have hschemas := requestSchemas_translated Sample.test "x-api-key"
  refine ⟨(joiToOpenApiSchema_permits _ _).1 (hschemas _ hmem.1) _ (by decide +kernel) Sample.headers_spelled,
    (joiToOpenApiSchema_permits _ _).1 (hschemas _ hmem.2) _ (by decide +kernel) Sample.body_spelled, ?_⟩
  -- the parameter `x-api-key` is marked required
  obtain ⟨p, hp, hrequired⟩ : ∃ p ∈ createParameters (some (commandHeaders "x-api-key")) .header,
    p.required = true := by
    decide +kernel
  have hrejects := (joiToOpenApiSchema_permits Sample.test _).2 .header p hp hrequired
  exact hrejects.resolve_left (by decide) [] (by simp) rfl rfl

/-- Schemas and values for which the contract forbids what the validation accepts: values allowed beside others, an
empty text among listed values, a listed value that breaks a rule, one of another type, an identifier in braces, a text
of two code units, flags of a pattern, a second schema for items; and a path parameter that the validation does not
require. -/
theorem not_joiToOpenApiSchema_permits :
    (∀ c ∈ ([(.string { allow := [.str (text "x")] } [], .str (text "y")),
        (.string { only := true, allow := [.str (text "x"), .str []] } [], .str []),
        (.string { only := true, allow := [.str (text "x")] } [.min 2], .str (text "x")),
        (.string { only := true, allow := [.num (Number.ofInt 1)] } [], .num (Number.ofInt 1)),
        (.string {} [.guid], .str (text "\x7b00000000-0000-4000-8000-000000000001\x7d")),
        (.string {} [.min 2], .str Sample.astral),
        (.string {} [.pattern (text "^a$") [.i]], .str (text "A")),
        (.array {} [.string {} [], .number {} []] [], .arr [.num (Number.ofInt 1)])] : List (Schema × Json JsString)),
      accepts Sample.test c.1 c.2 = true ∧
        (joiToOpenApiSchema c.1).valid (fun source => Sample.test source []) c.2 = false) ∧
    ∃ p ∈ createParameters (some (.object {} [(text "id", .string {} [])] false [])) .path,
      p.required = true ∧ accepts Sample.test (.object {} [(text "id", .string {} [])] false []) (.obj []) = true := by
  decide +kernel

end PaymentOrchestration.OpenApiKit
