/-
What the columns of payments and idempotency_keys accept (migrations 001 to 005): the conversion of a
statement's parameters to column values, and the CHECK constraints. A value a column does not accept
fails the statement.
-/
import PaymentOrchestration.Records

namespace PaymentOrchestration

open Lib

/-! ## Column types -/

/-- `text`, which cannot hold U+0000. -/
def textIn (s : String) : Except Err String :=
  if '\x00' ∈ s.toList then .error (.other "invalid byte sequence for encoding UTF8: 0x00") else .ok s

/-- `varchar(n)`: a longer text is refused, unless only spaces would be cut off. -/
def varcharIn (n : Nat) (s : String) : Except Err String :=
  match textIn s with
  | .error e => .error e
  | .ok s =>
    if s.toList.length ≤ n then .ok s
    else if (s.toList.drop n).all (· = ' ') then .ok (String.ofList (s.toList.take n))
    else .error (.other s!"value too long for type character varying({n})")

/-- A nullable column. -/
def nullable {α β : Type} (f : α → Except Err β) : Option α → Except Err (Option β)
  | none => .ok none
  | some a => (f a).map some

/-- `uuid`, from text. -/
def uuidColumn (s : String) : Except Err Uuid :=
  match Uuid.uuidIn s with
  | some u => .ok u
  | none => .error (.other s!"invalid input syntax for type uuid: {s}")

def digitsIn : List Char → Option (List (Fin 10))
  | [] => some []
  | c :: cs =>
    if '0' ≤ c ∧ c ≤ '9' then (digitsIn cs).map (Fin.ofNat 10 (c.toNat - 48) :: ·) else none

/-- A non-empty row of digits. -/
def naturalIn : List Char → Option Nat
  | [] => none
  | cs => (digitsIn cs).map Number.natOf

/-- `bigint`, from text: an optional sign and digits, within 64 bits. -/
def bigintIn (cs : List Char) : Option Int :=
  let z : Option Int := match cs with
    | '-' :: cs => (naturalIn cs).map fun (n : Nat) => -(n : Int)
    | cs => (naturalIn cs).map fun (n : Nat) => (n : Int)
  z.filter fun z => -2 ^ 63 ≤ z ∧ z < 2 ^ 63

def bigintColumn (cs : List Char) : Except Err Int :=
  match bigintIn cs with
  | some z => .ok z
  | none => .error (.other s!"invalid input syntax for type bigint: {String.ofList cs}")

/-- A `timestamptz` parameter: an invalid `Date` is refused. -/
def dateColumn : Option Millis → Except Err Timestamp
  | some t => .ok (ofDate t)
  | none => .error (.other "invalid input syntax for type timestamp with time zone")

/-- `jsonb`, whose strings cannot hold U+0000. -/
def jsonbColumn (v : Json String) : Except Err (Json String) :=
  if v.allStrings fun s => '\x00' ∉ s.toList then .ok v.jsonb
  else .error (.other "unsupported Unicode escape sequence")

/-- A CHECK constraint. -/
def check (name : String) (b : Bool) : Except Err Unit :=
  if b then .ok () else .error (.other s!"new row violates check constraint {name}")

/-! ## payments -/

/-- `InsertPaymentRecord`. -/
structure InsertPaymentRecord where
  id : Uuid
  merchantId : String
  amountMinor : List Char
  currency : String
  status : PaymentStatus
  provider : String
  providerPaymentId : Option String
  failureCode : Option String
  failureMessage : Option String
  authorizedAt : Option Millis
  failedAt : Option Millis

def currencies : List String := ["TRY", "USD", "EUR"]

/-- The row an insert into payments stores, its two timestamps of creation being the transaction's. -/
def InsertPaymentRecord.accept (record : InsertPaymentRecord) (now : Timestamp) : Except Err PaymentRecord := do
  let merchantId ← uuidColumn record.merchantId
  let amountMinor ← bigintColumn record.amountMinor
  let currency ← varcharIn 3 record.currency
  let provider ← varcharIn 50 record.provider
  let providerPaymentId ← nullable (varcharIn 120) record.providerPaymentId
  let failureCode ← nullable (varcharIn 80) record.failureCode
  let failureMessage ← nullable textIn record.failureMessage
  check "payments_amount_minor_positive_check" (0 < amountMinor)
  check "payments_currency_check" (currency ∈ currencies)
  return {
    id := record.id
    merchantId := merchantId
    amountMinor := amountMinor
    currency := currency
    status := record.status
    provider := provider
    providerPaymentId := providerPaymentId
    failureCode := failureCode
    failureMessage := failureMessage
    authorizedAt := record.authorizedAt.map ofDate
    capturedAt := none
    failedAt := record.failedAt.map ofDate
    createdAt := now
    updatedAt := now }

/-! ## idempotency_keys -/

/-- `TryInsertProcessingInput`. -/
structure TryInsertProcessingInput where
  scope : String
  idempotencyKey : String
  requestHash : String
  resourceType : String
  resourceId : String
  processingExpiresAt : Option Millis
  processingToken : Uuid

/-- The row `tryInsertProcessing` stores. -/
def TryInsertProcessingInput.accept (input : TryInsertProcessingInput) (id : Uuid) (now : Timestamp) :
    Except Err IdempotencyRecord := do
  let scope ← varcharIn 120 input.scope
  let idempotencyKey ← varcharIn 160 input.idempotencyKey
  let requestHash ← varcharIn 128 input.requestHash
  let resourceType ← varcharIn 80 input.resourceType
  let resourceId ← uuidColumn input.resourceId
  let processingExpiresAt ← dateColumn input.processingExpiresAt
  return {
    id := id
    scope := scope
    idempotencyKey := idempotencyKey
    requestHash := requestHash
    status := .processing
    resourceType := some resourceType
    resourceId := some resourceId
    responseStatusCode := none
    responseBody := none
    createdAt := now
    updatedAt := now
    expiresAt := none
    processingExpiresAt := some processingExpiresAt
    processingToken := input.processingToken }

/-! ## What an accepted value is -/

/-- A computation that ended well ended well at each step. -/
theorem ok_of_bind {ε α β : Type} {x : Except ε α} {f : α → Except ε β} {b : β} (h : (x >>= f) = .ok b) :
    ∃ a, x = .ok a ∧ f a = .ok b := by
  cases x with
  | error e => cases h
  | ok a => exact ⟨a, rfl, h⟩

theorem textIn_ok {s t : String} (h : textIn s = .ok t) : t = s ∧ '\x00' ∉ s.toList := by
  unfold textIn at h
  split at h
  · cases h
  · rename_i hn; cases h; exact ⟨rfl, hn⟩

theorem textIn_of_not_mem {s : String} (h : '\x00' ∉ s.toList) : textIn s = .ok s := by
  unfold textIn; rw [if_neg h]

/-- A `varchar(n)` column holds the text, or its first `n` characters. -/
theorem varcharIn_ok {n : Nat} {s t : String} (h : varcharIn n s = .ok t) :
    '\x00' ∉ s.toList ∧ t.toList = s.toList.take n := by
  unfold varcharIn at h
  split at h
  · cases h
  · rename_i u hu
    obtain ⟨rfl, hn⟩ := textIn_ok hu
    split at h
    · rename_i hlen; cases h; exact ⟨hn, (List.take_of_length_le hlen).symm⟩
    split at h
    · cases h; exact ⟨hn, String.toList_ofList⟩
    · cases h

theorem varcharIn_of_length {n : Nat} {s : String} (hn : '\x00' ∉ s.toList) (hlen : s.toList.length ≤ n) :
    varcharIn n s = .ok s := by
  unfold varcharIn; rw [textIn_of_not_mem hn]; exact if_pos hlen

theorem varcharIn_eq {n : Nat} {s t : String} (h : varcharIn n s = .ok t) (hlen : s.toList.length ≤ n) : t = s :=
  String.toList_inj.1 ((varcharIn_ok h).2.trans (List.take_of_length_le hlen))

/-- A stored text is stored as it is. -/
theorem varcharIn_stored {n : Nat} {s t : String} (h : varcharIn n s = .ok t) : varcharIn n t = .ok t := by
  obtain ⟨hn, ht⟩ := varcharIn_ok h
  refine varcharIn_of_length ?_ ?_
  · rw [ht]; exact fun hm => hn (List.mem_of_mem_take hm)
  · rw [ht]; exact List.length_take_le _ _

/-- The beginning of a text is stored. -/
theorem varcharIn_startsWith {n : Nat} {s t : String} {p : List Char} (h : varcharIn n s = .ok t) (hp : p <+: s.toList)
    (hlen : p.length ≤ n) : p <+: t.toList := by
  rw [(varcharIn_ok h).2]
  exact List.prefix_take_iff.2 ⟨hp, hlen⟩

theorem uuidColumn_ok {s : String} {u : Uuid} (h : uuidColumn s = .ok u) : Uuid.uuidIn s = some u := by
  unfold uuidColumn at h
  split at h
  · rename_i v hv; cases h; exact hv
  · cases h

theorem bigintColumn_ok {cs : List Char} {z : Int} (h : bigintColumn cs = .ok z) : bigintIn cs = some z := by
  unfold bigintColumn at h
  split at h
  · rename_i v hv; cases h; exact hv
  · cases h

theorem check_ok {name : String} {b : Bool} {u : Unit} (h : check name b = .ok u) : b = true := by
  unfold check at h
  split at h
  · assumption
  · cases h

/-- What an accepted payment row is. -/
structure InsertPaymentRecord.Admitted (record : InsertPaymentRecord) (now : Timestamp) (p : PaymentRecord) : Prop where
  id : p.id = record.id
  merchantId : Uuid.uuidIn record.merchantId = some p.merchantId
  amountMinor : bigintIn record.amountMinor = some p.amountMinor
  currency : varcharIn 3 record.currency = .ok p.currency
  status : p.status = record.status
  provider : varcharIn 50 record.provider = .ok p.provider
  providerPaymentId : nullable (varcharIn 120) record.providerPaymentId = .ok p.providerPaymentId
  failureCode : nullable (varcharIn 80) record.failureCode = .ok p.failureCode
  failureMessage : nullable textIn record.failureMessage = .ok p.failureMessage
  authorizedAt : p.authorizedAt = record.authorizedAt.map ofDate
  capturedAt : p.capturedAt = none
  failedAt : p.failedAt = record.failedAt.map ofDate
  createdAt : p.createdAt = now
  positive : 0 < p.amountMinor
  known : p.currency ∈ currencies

theorem InsertPaymentRecord.accept_ok {record : InsertPaymentRecord} {now : Timestamp} {p : PaymentRecord}
    (h : record.accept now = .ok p) : record.Admitted now p := by
  unfold InsertPaymentRecord.accept at h
  obtain ⟨merchantId, h1, h⟩ := ok_of_bind h
  obtain ⟨amountMinor, h2, h⟩ := ok_of_bind h
  obtain ⟨currency, h3, h⟩ := ok_of_bind h
  obtain ⟨provider, h4, h⟩ := ok_of_bind h
  obtain ⟨providerPaymentId, h5, h⟩ := ok_of_bind h
  obtain ⟨failureCode, h6, h⟩ := ok_of_bind h
  obtain ⟨failureMessage, h7, h⟩ := ok_of_bind h
  obtain ⟨_, h8, h⟩ := ok_of_bind h
  obtain ⟨_, h9, h⟩ := ok_of_bind h
  cases h
  exact ⟨rfl, uuidColumn_ok h1, bigintColumn_ok h2, h3, rfl, h4, h5, h6, h7, rfl, rfl, rfl, rfl,
    of_decide_eq_true (check_ok h8), of_decide_eq_true (check_ok h9)⟩

/-- A row whose values fit their columns and meet the constraints is accepted. -/
theorem InsertPaymentRecord.accept_of {record : InsertPaymentRecord} (now : Timestamp)
    {merchantId : Uuid} {amountMinor : Int}
    {provider : String} {providerPaymentId failureCode failureMessage : Option String}
    (hmerchant : Uuid.uuidIn record.merchantId = some merchantId)
    (hamount : bigintIn record.amountMinor = some amountMinor)
    (hpositive : 0 < amountMinor) (hcurrency : record.currency ∈ currencies)
    (hprovider : varcharIn 50 record.provider = .ok provider)
    (hreference : nullable (varcharIn 120) record.providerPaymentId = .ok providerPaymentId)
    (hcode : nullable (varcharIn 80) record.failureCode = .ok failureCode)
    (hmessage : nullable textIn record.failureMessage = .ok failureMessage) : ∃ p, record.accept now = .ok p := by
  have h1 : uuidColumn record.merchantId = .ok merchantId := by simp only [uuidColumn, hmerchant]
  have h2 : bigintColumn record.amountMinor = .ok amountMinor := by simp only [bigintColumn, hamount]
  have h3 : varcharIn 3 record.currency = .ok record.currency := by
    revert hcurrency
    simp only [currencies, List.mem_cons, List.not_mem_nil, or_false]
    rintro (h | h | h) <;> rw [h] <;> decide
  have h4 : check "payments_amount_minor_positive_check" (0 < amountMinor) = .ok () := if_pos (decide_eq_true hpositive)
  have h5 : check "payments_currency_check" (record.currency ∈ currencies) = .ok () := if_pos (decide_eq_true hcurrency)
  simp only [InsertPaymentRecord.accept, h1, h2, h3, hprovider, hreference, hcode, hmessage, bind, Except.bind, h4, h5]
  exact ⟨_, rfl⟩

/-- What an accepted idempotency row is. -/
structure TryInsertProcessingInput.Admitted (input : TryInsertProcessingInput) (id : Uuid) (r : IdempotencyRecord) :
    Prop where
  id : r.id = id
  scope : varcharIn 120 input.scope = .ok r.scope
  idempotencyKey : varcharIn 160 input.idempotencyKey = .ok r.idempotencyKey
  requestHash : varcharIn 128 input.requestHash = .ok r.requestHash
  resourceId : ∃ u, Uuid.uuidIn input.resourceId = some u ∧ r.resourceId = some u
  status : r.status = .processing
  responseStatusCode : r.responseStatusCode = none
  responseBody : r.responseBody = none
  processingExpiresAt : r.processingExpiresAt.isSome = true
  processingToken : r.processingToken = input.processingToken

theorem TryInsertProcessingInput.accept_ok {input : TryInsertProcessingInput} {id : Uuid} {now : Timestamp}
    {r : IdempotencyRecord} (h : input.accept id now = .ok r) : input.Admitted id r := by
  unfold TryInsertProcessingInput.accept at h
  obtain ⟨scope, h1, h⟩ := ok_of_bind h
  obtain ⟨idempotencyKey, h2, h⟩ := ok_of_bind h
  obtain ⟨requestHash, h3, h⟩ := ok_of_bind h
  obtain ⟨resourceType, -, h⟩ := ok_of_bind h
  obtain ⟨resourceId, h5, h⟩ := ok_of_bind h
  obtain ⟨processingExpiresAt, -, h⟩ := ok_of_bind h
  cases h
  exact ⟨rfl, h1, h2, h3, ⟨resourceId, uuidColumn_ok h5, rfl⟩, rfl, rfl, rfl, rfl, rfl⟩

/-! ## Amounts -/

theorem digitsIn_ok : ∀ {cs : List Char} {ds : List (Fin 10)}, digitsIn cs = some ds → cs = ds.map Number.digitChar
  | [], ds, h => by cases h; rfl
  | c :: cs, ds, h => by
    simp only [digitsIn] at h
    split at h
    · rename_i hc
      obtain ⟨ds', hds, rfl⟩ := Option.map_eq_some_iff.1 h
      rw [digitsIn_ok hds, List.map_cons]
      congr 1
      have h0 : 48 ≤ c.toNat := hc.1
      have h9 : c.toNat ≤ 57 := hc.2
      have hval : 48 + (c.toNat - 48) % 10 = c.toNat := by omega
      simp only [Number.digitChar, Fin.ofNat, hval]
      exact (Char.ofNat_toNat c).symm
    · cases h

theorem digitsIn_digitChar (d : Fin 10) : '0' ≤ Number.digitChar d ∧ Number.digitChar d ≤ '9' ∧
    Fin.ofNat 10 ((Number.digitChar d).toNat - 48) = d := by
  revert d; decide

theorem digitsIn_map : ∀ ds : List (Fin 10), digitsIn (ds.map Number.digitChar) = some ds
  | [] => rfl
  | d :: ds => by
    obtain ⟨h0, h9, hd⟩ := digitsIn_digitChar d
    rw [List.map_cons, digitsIn, if_pos ⟨h0, h9⟩, digitsIn_map ds, hd]; rfl

theorem naturalIn_ok {cs : List Char} {n : Nat} (h : naturalIn cs = some n) :
    ∃ ds, cs = ds.map Number.digitChar ∧ n = Number.natOf ds := by
  unfold naturalIn at h
  split at h
  · cases h
  · obtain ⟨ds, hds, rfl⟩ := Option.map_eq_some_iff.1 h
    exact ⟨ds, digitsIn_ok hds, rfl⟩

/-- A number's text is read by a bigint column only as that number. -/
theorem bigintIn_toText {x : Number} {z : Int} (h : bigintIn x.toText = some z) : x = Number.ofInt z := by
  rw [← Number.ofText_toText x]
  generalize x.toText = cs at h
  simp only [bigintIn, Option.filter_eq_some_iff] at h
  obtain ⟨h, -⟩ := h
  split at h
  · rename_i cs
    obtain ⟨n, hn, rfl⟩ := Option.map_eq_some_iff.1 h
    obtain ⟨ds, rfl, rfl⟩ := naturalIn_ok hn
    rw [Number.ofText, Number.magnitudeOf_digits, Number.normalize_integer]
    unfold Number.ofInt
    rw [Int.natAbs_neg, Int.natAbs_natCast]
    by_cases h0 : Number.natOf ds = 0
    · rw [h0]; decide
    · rw [decide_eq_true (by omega)]
  · rename_i hneg
    obtain ⟨n, hn, rfl⟩ := Option.map_eq_some_iff.1 h
    obtain ⟨ds, rfl, rfl⟩ := naturalIn_ok hn
    rw [Number.ofInt_ofNat, ← Number.normalize_integer, ← Number.magnitudeOf_digits]
    unfold Number.ofText
    split
    · rename_i t ht; exact absurd ht (hneg t)
    · rfl

/-- A bigint column reads a positive amount as it is printed. -/
theorem bigintIn_ofInt {n : Nat} (h0 : 0 < n) (hn : n ≤ 1000000000000) :
    bigintIn (Number.ofInt n).toText = some (n : Int) := by
  have hlen : (Number.natDigits n).length ≤ 13 := Number.natDigits_length (by omega)
  have htext := Number.toText_ofInt h0 (by omega)
  have hne : (Number.ofInt n).toText ≠ [] := Number.toText_ne_nil _
  rw [htext] at hne ⊢
  have hnat : naturalIn ((Number.natDigits n).map Number.digitChar) = some n := by
    unfold naturalIn
    split
    · rename_i h; exact absurd h hne
    · rw [digitsIn_map, Option.map_some, Number.natOf_natDigits]
  have hneg : ∀ cs, (Number.natDigits n).map Number.digitChar ≠ '-' :: cs := by
    intro cs h
    obtain ⟨d, ds, -, hd, -⟩ := List.map_eq_cons_iff.1 h
    exact (Number.digitChar_ne d).1 hd
  unfold bigintIn
  split
  · rename_i cs h; exact absurd h (hneg cs)
  · rw [hnat, Option.map_some, Option.filter_some, if_pos (by simp only [decide_eq_true_eq]; omega)]

end PaymentOrchestration
