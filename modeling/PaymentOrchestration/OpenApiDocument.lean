/-
The OpenAPI document that openapi-kit makes of a service's routes. `document_faithful` says that the
document has the operations of the routes, each under its own path and method, and no other; that a path of
Express can be read off the path of the document; and that the parameters in a path keep their names.
-/
import Mathlib.Data.List.AList
import PaymentOrchestration.Http
import PaymentOrchestration.Lib.SchemaObject

namespace PaymentOrchestration.OpenApiKit

open Lib Http

/-! ## types.ts -/

inductive HttpMethod
  | get
  | post
  | put
  | patch
  | delete
deriving DecidableEq

structure RouteResponseContract where
  description : String
  schema : Option SchemaObject := none

/-- What is read of a route to document it; `responses` goes by status codes. -/
structure IRouteSettings where
  path : String
  method : HttpMethod
  tags : List String
  description : String
  validation : RouteRequestValidation
  responses : List (Int × RouteResponseContract)

/-! ## generate-openapi-paths.ts -/

def openBrace : Char := '\x7b'

def closeBrace : Char := '\x7d'

/-- `[A-Za-z0-9_]` -/
def isNameChar (c : Char) : Bool := c.isAlphanum || c = '_'

/-- The replacement of every `:([A-Za-z0-9_]+)` by its name in braces, within a name or not. -/
def replaceParams (inName : Bool) : List Char → List Char
  | [] => if inName then [closeBrace] else []
  | c :: cs =>
    if inName && isNameChar c then c :: replaceParams true cs
    else (if inName then [closeBrace] else []) ++
      if c = ':' && cs.head?.any isNameChar then openBrace :: replaceParams true cs else c :: replaceParams false cs

def toOpenApiPath (expressPath : String) : String := String.ofList (replaceParams false expressPath.toList)

/-- A response of the document, with the schema of its content. -/
structure ResponseObject where
  description : String
  content : Option SchemaObject

def createResponses (route : IRouteSettings) : List (Int × ResponseObject) :=
  route.responses.map fun (statusCode, response) => (statusCode, ⟨response.description, response.schema⟩)

/-- An operation of the document, with the schema of a required body. -/
structure OperationObject where
  tags : List String
  description : String
  parameters : List Parameter
  requestBody : Option OpenApi
  responses : List (Int × ResponseObject)

def operationOf (route : IRouteSettings) : OperationObject where
  tags := route.tags
  description := route.description
  parameters := createParameters route.validation.params .path ++ createParameters route.validation.query .query ++
    createParameters route.validation.headers .header
  requestBody := createRequestBody route.validation.body
  responses := createResponses route

/-- The operations of a path, by their methods. -/
abbrev PathItem := AList fun _ : HttpMethod => OperationObject

abbrev Paths := AList fun _ : String => PathItem

/-- One step of `reduce`. What is assigned to `__proto__` is no member. -/
def addRoute (paths : Paths) (route : IRouteSettings) : Paths :=
  let openApiPath := toOpenApiPath route.path
  if openApiPath = "__proto__" then paths
  else paths.insert openApiPath (((paths.lookup openApiPath).getD ∅).insert route.method (operationOf route))

def generateOpenApiPaths (routes : List IRouteSettings) : Paths := routes.foldl addRoute ∅

/-- The operation under a path and a method. -/
def operation (paths : Paths) (path : String) (method : HttpMethod) : Option OperationObject :=
  (paths.lookup path).bind (·.lookup method)

/-! ## Paths -/

/-- A path of Express without braces, from the root. -/
structure Plain (path : String) : Prop where
  root : path.toList.head? = some '/'
  braces : ∀ c ∈ path.toList, c ≠ openBrace ∧ c ≠ closeBrace

theorem Plain.of_all {path : String} (hroot : path.toList.head? = some '/')
    (hbraces : (path.toList.all fun c => c ≠ openBrace ∧ c ≠ closeBrace) = true) : Plain path where
  root := hroot
  braces := fun c hc => of_decide_eq_true (List.all_eq_true.1 hbraces c hc)

/-- What stands in the path of Express for a character of the document's path. -/
def restoreParams (cs : List Char) : List Char :=
  cs.flatMap fun c => if c = openBrace then [':'] else if c = closeBrace then [] else [c]

theorem restore_replaceParams : ∀ {cs : List Char}, (∀ c ∈ cs, c ≠ openBrace ∧ c ≠ closeBrace) → ∀ inName,
    restoreParams (replaceParams inName cs) = cs
  | [], _, inName => by cases inName <;> rfl
  | c :: cs, h, inName => by
    obtain ⟨⟨hopen, hclose⟩, hcs⟩ := List.forall_mem_cons.1 h
    have ih := restore_replaceParams hcs
    have hclosed : restoreParams (if inName then [closeBrace] else []) = [] := by cases inName <;> rfl
    have happend : ∀ s t, restoreParams (s ++ t) = restoreParams s ++ restoreParams t := fun _ _ => List.flatMap_append
    have hcons : ∀ t, restoreParams (c :: t) = c :: restoreParams t := by
      intro t
      rw [restoreParams, List.flatMap_cons, if_neg hopen, if_neg hclose]
      rfl
    rw [replaceParams]
    split
    · rw [hcons, ih]
    · rw [happend, hclosed, List.nil_append]
      split
      · rename_i hcolon
        have hc : c = ':' := by
          rw [Bool.and_eq_true, decide_eq_true_iff] at hcolon
          exact hcolon.1
        change ':' :: restoreParams (replaceParams true cs) = _
        rw [ih, hc]
      · rw [hcons, ih]

/-- Different paths of Express have different paths in the document. -/
theorem toOpenApiPath_inj {path path' : String} (h : Plain path) (h' : Plain path')
    (heq : toOpenApiPath path = toOpenApiPath path') : path = path' := by
  have heq := congrArg restoreParams (String.ofList_injective heq)
  rw [restore_replaceParams h.braces, restore_replaceParams h'.braces] at heq
  exact String.toList_inj.1 heq

theorem toOpenApiPath_ne_proto {path : String} (h : Plain path) : toOpenApiPath path ≠ "__proto__" := by
  intro heq
  have hroot := h.root
  have heq := congrArg String.toList heq
  rw [toOpenApiPath, String.toList_ofList] at heq
  cases hcs : path.toList with
  | nil => rw [hcs] at hroot; cases hroot
  | cons c cs =>
    rw [hcs] at hroot heq
    obtain rfl := Option.some.inj hroot
    simp [replaceParams] at heq

/-- The names in braces, `inside` one or not. -/
def placeholders (inside : Option (List Char)) : List Char → List (List Char)
  | [] => []
  | c :: cs =>
    match inside with
    | none => if c = openBrace then placeholders (some []) cs else placeholders none cs
    | some name => if c = closeBrace then name :: placeholders none cs else placeholders (some (name ++ [c])) cs

/-- The names of the parameters in a path of Express, from within a name or not. -/
def paramNames (inName : Option (List Char)) : List Char → List (List Char)
  | [] => inName.toList
  | c :: cs =>
    if inName.isSome && isNameChar c then paramNames (inName.map (· ++ [c])) cs
    else inName.toList ++ paramNames (if c = ':' && cs.head?.any isNameChar then some [] else none) cs

/-- The parameters of a path keep their names. -/
theorem placeholders_replaceParams : ∀ {cs : List Char}, (∀ c ∈ cs, c ≠ openBrace ∧ c ≠ closeBrace) → ∀ inName,
    placeholders inName (replaceParams inName.isSome cs) = paramNames inName cs
  | [], _, inName => by cases inName <;> rfl
  | c :: cs, h, inName => by
    obtain ⟨⟨hopen, hclose⟩, hcs⟩ := List.forall_mem_cons.1 h
    have ih := placeholders_replaceParams hcs
    -- outside of a name, where `c` may begin one
    have houtside : placeholders none
        (if c = ':' && cs.head?.any isNameChar then openBrace :: replaceParams true cs
        else c :: replaceParams false cs) =
        paramNames (if c = ':' && cs.head?.any isNameChar then some [] else none) cs := by
      split
      · rw [placeholders, if_pos rfl]
        exact ih (some [])
      · rw [placeholders, if_neg hopen]
        exact ih none
    cases inName with
    | none =>
      rw [replaceParams, paramNames]
      exact houtside
    | some name =>
      rw [replaceParams, paramNames]
      cases hname : isNameChar c with
      | true =>
        change placeholders (some name) (c :: replaceParams true cs) = _
        rw [placeholders, if_neg hclose]
        exact ih (some (name ++ [c]))
      | false =>
        change placeholders (some name) (closeBrace :: _) = name :: _
        rw [placeholders, if_pos rfl, ← houtside]
        rfl

/-! ## Operations -/

section Operations

variable {routes : List IRouteSettings} {r : IRouteSettings} {path : String} {method : HttpMethod} {o : OperationObject}

/-- The route is documented under the path and the method. -/
def IRouteSettings.At (r : IRouteSettings) (path : String) (method : HttpMethod) : Prop :=
  toOpenApiPath r.path = path ∧ r.method = method

instance : Decidable (r.At path method) := inferInstanceAs (Decidable (_ ∧ _))

theorem operation_addRoute {paths : Paths} (hpath : path ≠ "__proto__") : operation (addRoute paths r) path method =
    if r.At path method then some (operationOf r) else operation paths path method := by
  by_cases hp : toOpenApiPath r.path = path
  swap
  · rw [if_neg fun h : r.At path method => hp h.1, addRoute]
    split
    · rfl
    · rw [operation, AList.lookup_insert_ne (Ne.symm hp)]
      rfl
  subst hp
  rw [addRoute, if_neg hpath, operation, AList.lookup_insert, Option.bind_some]
  by_cases hm : r.method = method
  · subst hm
    have hat : r.At (toOpenApiPath r.path) r.method := ⟨rfl, rfl⟩
    rw [AList.lookup_insert, if_pos hat]
  · rw [AList.lookup_insert_ne (Ne.symm hm), if_neg fun h : r.At (toOpenApiPath r.path) method => hm h.2, operation]
    cases paths.lookup (toOpenApiPath r.path) with
    | none => exact AList.lookup_empty method
    | some item => rfl

/-- Of the routes under a path and a method, the last one is documented. -/
theorem operation_generate (routes : List IRouteSettings) (hpath : path ≠ "__proto__") :
    operation (generateOpenApiPaths routes) path method =
      ((routes.filter fun r => r.At path method).getLast?).map operationOf := by
  unfold generateOpenApiPaths
  induction routes using List.reverseRecOn with
  | nil => simp [operation]
  | append_singleton routes r ih =>
    rw [List.foldl_append, List.foldl_cons, List.foldl_nil, operation_addRoute hpath, ih,
      List.filter_append, List.filter_cons, List.filter_nil]
    by_cases h : r.At path method
    · simp [h]
    · simp [h]

/-- Nothing is documented under the one name that is no member. -/
theorem operation_proto (routes : List IRouteSettings) :
    operation (generateOpenApiPaths routes) "__proto__" method = none := by
  unfold generateOpenApiPaths
  induction routes using List.reverseRecOn with
  | nil => simp [operation]
  | append_singleton routes r ih =>
    rw [List.foldl_append, List.foldl_cons, List.foldl_nil, addRoute]
    split
    · exact ih
    · rename_i hp
      rw [operation, AList.lookup_insert_ne (Ne.symm hp)]
      exact ih

/-- Paths without braces, and one method at most for each of them. -/
structure WellFormed (routes : List IRouteSettings) : Prop where
  plain : ∀ r ∈ routes, Plain r.path
  unique : routes.Pairwise fun r r' => ¬(r.path = r'.path ∧ r.method = r'.method)

theorem WellFormed.eq (h : WellFormed routes) {r' : IRouteSettings} (hr : r ∈ routes) (hr' : r' ∈ routes)
    (hat : r.At path method) (hat' : r'.At path method) : r = r' := by
  by_contra hne
  have hsymm : Std.Symm fun r r' : IRouteSettings => ¬(r.path = r'.path ∧ r.method = r'.method) :=
    ⟨fun _ _ h heq => h ⟨heq.1.symm, heq.2.symm⟩⟩
  refine h.unique.forall hr hr' hne ⟨?_, hat.2.trans hat'.2.symm⟩
  exact toOpenApiPath_inj (h.plain r hr) (h.plain r' hr') (hat.1.trans hat'.1.symm)

theorem operation_iff (h : WellFormed routes) : operation (generateOpenApiPaths routes) path method = some o ↔
    ∃ r ∈ routes, r.At path method ∧ o = operationOf r := by
  by_cases hpath : path = "__proto__"
  · subst hpath
    rw [operation_proto]
    refine ⟨fun h => (by cases h), ?_⟩
    rintro ⟨r, hr, hat, -⟩
    exact absurd hat.1 (toOpenApiPath_ne_proto (h.plain r hr))
  rw [operation_generate routes hpath, Option.map_eq_some_iff]
  constructor
  · rintro ⟨r, hlast, rfl⟩
    obtain ⟨hr, hat⟩ := List.mem_filter.1 (List.mem_of_getLast? hlast)
    exact ⟨r, hr, of_decide_eq_true hat, rfl⟩
  · rintro ⟨r, hr, hat, rfl⟩
    have hmem : r ∈ routes.filter fun r => r.At path method := List.mem_filter.2 ⟨hr, decide_eq_true hat⟩
    have hlast := List.getLast?_eq_some_getLast (List.ne_nil_of_mem hmem)
    generalize List.getLast _ _ = r' at hlast
    obtain ⟨hr', hat'⟩ := List.mem_filter.1 (List.mem_of_getLast? hlast)
    obtain rfl := h.eq hr hr' hat (of_decide_eq_true hat')
    exact ⟨r, hlast, rfl⟩

theorem operation_of_mem (h : WellFormed routes) (hr : r ∈ routes) :
    operation (generateOpenApiPaths routes) (toOpenApiPath r.path) r.method = some (operationOf r) :=
  (operation_iff h).2 ⟨r, hr, ⟨rfl, rfl⟩, rfl⟩

end Operations

/-- The document has the operations of the routes under their paths and methods, and no other. A path of
Express can be read off its path in the document, which names the parameters of that path and no other. -/
theorem document_faithful {routes : List IRouteSettings} (h : WellFormed routes) :
    (∀ path method o, operation (generateOpenApiPaths routes) path method = some o ↔
      ∃ r ∈ routes, toOpenApiPath r.path = path ∧ r.method = method ∧ o = operationOf r) ∧
    ∀ r ∈ routes, String.ofList (restoreParams (toOpenApiPath r.path).toList) = r.path ∧
      placeholders none (toOpenApiPath r.path).toList = paramNames none r.path.toList := by
  refine ⟨fun path method o => ?_, fun r hr => ?_⟩
  · rw [operation_iff h]
    simp only [IRouteSettings.At, and_assoc]
  · have hplain := h.plain r hr
    rw [toOpenApiPath, String.toList_ofList, restore_replaceParams hplain.braces, String.ofList_toList]
    exact ⟨rfl, placeholders_replaceParams hplain.braces none⟩

namespace Sample

def captureRoute : IRouteSettings where
  path := "/payments/:paymentId/capture"
  method := .post
  tags := ["payments"]
  description := "Capture an authorized payment"
  validation := PaymentRoute.capture.validation .xApiKey
  responses := [(404, ⟨"PAYMENT_NOT_FOUND", none⟩)]

theorem captureRoute_wellFormed : WellFormed [captureRoute] where
  plain := List.forall_mem_singleton.2 (.of_all (by decide) (by decide))
  unique := List.pairwise_singleton _ _

end Sample

/-- The route is documented under its path, with the parameter in braces. -/
theorem document_faithful_capture :
    operation (generateOpenApiPaths [Sample.captureRoute]) "/payments/\x7bpaymentId\x7d/capture" .post =
    some (operationOf Sample.captureRoute) :=
  ((document_faithful Sample.captureRoute_wellFormed).1 _ _ _).2
    ⟨Sample.captureRoute, List.mem_singleton_self _, by decide, rfl, rfl⟩

end PaymentOrchestration.OpenApiKit
