/-
The text of a JSON value, as `JSON.stringify` writes it. `stringify_inj`: the text determines the
value, members in order. The proof reads a text from the left: what a value starts with says which
kind it is, and a number ends where a comma or a bracket follows.
-/
import PaymentOrchestration.Lib.Json
import PaymentOrchestration.Lib.JsString

namespace PaymentOrchestration.Lib

namespace Json

open JsString

mutual

/-- `JSON.stringify`. -/
def stringify : Json JsString → JsString
  | .null => units "null".toList
  | .bool true => units "true".toList
  | .bool false => units "false".toList
  | .num n => units n.toText
  | .str s => quote s
  | .arr [] => [0x5B, 0x5D]
  | .arr (v :: vs) => 0x5B :: (stringify v ++ stringifyItems vs)
  | .obj [] => [0x7B, 0x7D]
  | .obj ((k, v) :: ms) => 0x7B :: (quote k ++ 0x3A :: (stringify v ++ stringifyMembers ms))
termination_by structural v => v

/-- The items after the first, and the bracket. -/
def stringifyItems : List (Json JsString) → JsString
  | [] => [0x5D]
  | v :: vs => 0x2C :: (stringify v ++ stringifyItems vs)
termination_by structural vs => vs

/-- The members after the first, and the bracket. -/
def stringifyMembers : List (JsString × Json JsString) → JsString
  | [] => [0x7D]
  | (k, v) :: ms => 0x2C :: (quote k ++ 0x3A :: (stringify v ++ stringifyMembers ms))
termination_by structural ms => ms

end

example : stringify (.obj [(utf16 "id", .str (utf16 "p")), (utf16 "n", .arr [.num (Number.ofInt 10), .null])]) =
    utf16 "\x7b\"id\":\"p\",\"n\":[10,null]\x7d" := by decide

mutual

/-- A value with its texts as JavaScript holds them. -/
def inUtf16 : Json String → Json JsString
  | .null => .null
  | .bool b => .bool b
  | .num n => .num n
  | .str s => .str (utf16 s)
  | .arr items => .arr (itemsInUtf16 items)
  | .obj members => .obj (membersInUtf16 members)
termination_by structural v => v

def itemsInUtf16 : List (Json String) → List (Json JsString)
  | [] => []
  | v :: vs => inUtf16 v :: itemsInUtf16 vs
termination_by structural vs => vs

def membersInUtf16 : List (String × Json String) → List (JsString × Json JsString)
  | [] => []
  | (k, v) :: ms => (utf16 k, inUtf16 v) :: membersInUtf16 ms
termination_by structural ms => ms

end

theorem itemsInUtf16_eq : ∀ vs : List (Json String), itemsInUtf16 vs = vs.map inUtf16
  | [] => rfl
  | v :: vs => by rw [itemsInUtf16, itemsInUtf16_eq vs, List.map_cons]

theorem membersInUtf16_eq : ∀ ms : List (String × Json String), membersInUtf16 ms = ms.map (Prod.map utf16 inUtf16)
  | [] => rfl
  | (k, v) :: ms => by rw [membersInUtf16, membersInUtf16_eq ms, List.map_cons]; rfl

theorem map_inj_of_mem {α β : Type} {f : α → β} :
    ∀ {l m : List α}, (∀ a ∈ l, ∀ b, f a = f b → a = b) → l.map f = m.map f → l = m
  | [], m, _, h => (List.map_eq_nil_iff.1 h.symm).symm
  | a :: l, [], _, h => by cases h
  | a :: l, b :: m, hf, h => by
    rw [List.map_cons, List.map_cons, List.cons.injEq] at h
    rw [hf a List.mem_cons_self b h.1, map_inj_of_mem (fun a ha => hf a (List.mem_cons_of_mem _ ha)) h.2]

/-- A value is determined by what JavaScript holds. -/
theorem inUtf16_inj {v w : Json String} (h : v.inUtf16 = w.inUtf16) : v = w := by
  induction v using Json.ind generalizing w with
  | null => cases w <;> simp_all [inUtf16]
  | bool b => cases w <;> simp_all [inUtf16]
  | num n => cases w <;> simp_all [inUtf16]
  | str s =>
    cases w with
    | str t => exact congrArg Json.str (utf16_inj (Json.str.inj h))
    | _ => cases h
  | arr items ih =>
    cases w with
    | arr items' =>
      simp only [inUtf16, itemsInUtf16_eq, Json.arr.injEq] at h
      exact congrArg Json.arr (map_inj_of_mem (fun v hv w => ih v hv) h)
    | _ => cases h
  | obj members ih =>
    cases w with
    | obj members' =>
      simp only [inUtf16, membersInUtf16_eq, Json.obj.injEq] at h
      refine congrArg Json.obj (map_inj_of_mem (fun m hm m' hmm => ?_) h)
      obtain ⟨hk, hv⟩ := Prod.ext_iff.1 hmm
      exact Prod.ext (utf16_inj hk) (ih m hm hv)
    | _ => cases h

/-! ## What a text starts with -/

/-- The kind of a value. -/
def kind : Json JsString → Nat
  | .null => 0
  | .bool true => 1
  | .bool false => 2
  | .num _ => 3
  | .str _ => 4
  | .arr _ => 5
  | .obj _ => 6

/-- The kind of the value a text starts with. -/
def leadingKind (t : JsString) : Nat :=
  match t.head? with
  | some u => if u = 0x6E then 0 else if u = 0x74 then 1 else if u = 0x66 then 2 else if u = 0x22 then 4
    else if u = 0x5B then 5 else if u = 0x7B then 6 else 3
  | none => 7

theorem leadingKind_unit : ∀ c ∈ Number.numberChars, leadingKind [unit c] = 3 := Number.forall_numberChars.2 (by decide)

theorem leadingKind_number (n : Number) (a : JsString) : leadingKind (units n.toText ++ a) = 3 := by
  obtain ⟨c, cs, hc⟩ := List.exists_cons_of_ne_nil n.toText_ne_nil
  have hm : c ∈ Number.numberChars := n.toText_chars c (by rw [hc]; exact List.mem_cons_self)
  rw [hc]
  exact leadingKind_unit c hm

theorem leadingKind_stringify (v : Json JsString) (a : JsString) : leadingKind (stringify v ++ a) = v.kind := by
  match v with
  | .null => rfl
  | .bool true => rfl
  | .bool false => rfl
  | .num n => exact leadingKind_number n a
  | .str s => rfl
  | .arr [] => rfl
  | .arr (_ :: _) => rfl
  | .obj [] => rfl
  | .obj (_ :: _) => rfl

theorem stringify_ne_bracket (v : Json JsString) (a b : JsString) : stringify v ++ a ≠ 0x5D :: b := by
  intro h
  match v with
  | .num n =>
    obtain ⟨c, cs, hc⟩ := List.exists_cons_of_ne_nil n.toText_ne_nil
    have hm : c ∈ Number.numberChars := n.toText_chars c (by rw [hc]; exact List.mem_cons_self)
    have hne : ∀ c ∈ Number.numberChars, unit c ≠ 0x5D := Number.forall_numberChars.2 (by decide)
    simp only [stringify, hc] at h
    exact hne c hm (List.cons.inj h).1
  | .null | .bool true | .bool false => simp [stringify, units, unit] at h
  | .str s => simp [stringify, quote] at h
  | .arr [] | .arr (_ :: _) | .obj [] | .obj (_ :: _) => simp [stringify] at h

/-! ## Where a text ends -/

/-- No number goes on here: the text is over, or a comma or a closing bracket follows. -/
def Stops (t : JsString) : Prop := ∀ c ∈ Number.numberChars, t.head? ≠ some (unit c)

theorem stops_cons {u : UInt16} (h : ∀ c ∈ Number.numberChars, u ≠ unit c) (t : JsString) : Stops (u :: t) := by
  intro c hc he
  exact h c hc (Option.some.inj he)

theorem stops_nil : Stops [] := by intro c _ h; cases h

theorem stops_items (vs : List (Json JsString)) (a : JsString) : Stops (stringifyItems vs ++ a) := by
  cases vs <;> exact stops_cons (Number.forall_numberChars.2 (by decide)) _

theorem stops_members (ms : List (JsString × Json JsString)) (a : JsString) : Stops (stringifyMembers ms ++ a) := by
  cases ms <;> exact stops_cons (Number.forall_numberChars.2 (by decide)) _

theorem unit_inj {c d : Char} (hc : c ∈ Number.numberChars) (hd : d ∈ Number.numberChars) (h : unit c = unit d) :
    c = d := by
  have hsmall : ∀ c ∈ Number.numberChars, c.toNat < 65536 := Number.forall_numberChars.2 (by decide)
  have hnat := congrArg UInt16.toNat h
  rw [unit, unit, toNat_ofNat (hsmall c hc), toNat_ofNat (hsmall d hd)] at hnat
  exact Char.toNat_inj.1 hnat

/-- Two texts of number characters that stop at the same place are the same. -/
theorem units_append_inj : ∀ {s t : List Char} {a b : JsString}, (∀ c ∈ s, c ∈ Number.numberChars) →
    (∀ c ∈ t, c ∈ Number.numberChars) → Stops a → Stops b → units s ++ a = units t ++ b → s = t ∧ a = b
  | [], [], a, b, _, _, _, _, h => ⟨rfl, h⟩
  | [], d :: t, a, b, _, ht, ha, _, h => by
    refine absurd ?_ (ha d (ht d List.mem_cons_self))
    rw [show a = unit d :: (units t ++ b) from h]; rfl
  | c :: s, [], a, b, hs, _, _, hb, h => by
    refine absurd ?_ (hb c (hs c List.mem_cons_self))
    rw [show b = unit c :: (units s ++ a) from h.symm]; rfl
  | c :: s, d :: t, a, b, hs, ht, ha, hb, h => by
    obtain ⟨hcd, hst⟩ := List.cons.inj h
    obtain rfl := unit_inj (hs c List.mem_cons_self) (ht d List.mem_cons_self) hcd
    obtain ⟨rfl, hab⟩ := units_append_inj (fun x hx => hs x (List.mem_cons_of_mem _ hx))
      (fun x hx => ht x (List.mem_cons_of_mem _ hx)) ha hb hst
    exact ⟨rfl, hab⟩

/-! ## A text determines its value -/

/-- The text of `v` is not the beginning of another value's text. -/
def Readable (v : Json JsString) : Prop :=
  ∀ {w : Json JsString} {a b : JsString}, Stops a → Stops b → stringify v ++ a = stringify w ++ b → v = w ∧ a = b

theorem stringifyItems_inj : ∀ {vs ws : List (Json JsString)} {a b : JsString}, (∀ v ∈ vs, Readable v) →
    stringifyItems vs ++ a = stringifyItems ws ++ b → vs = ws ∧ a = b
  | [], [], a, b, _, h => ⟨rfl, by simpa [stringifyItems] using h⟩
  | [], _ :: _, _, _, _, h => by simp [stringifyItems] at h
  | _ :: _, [], _, _, _, h => by simp [stringifyItems] at h
  | v :: vs, w :: ws, a, b, hv, h => by
    simp only [stringifyItems, List.cons_append, List.append_assoc, List.cons.injEq, true_and] at h
    obtain ⟨rfl, h'⟩ := hv v List.mem_cons_self (stops_items vs a) (stops_items ws b) h
    obtain ⟨rfl, hab⟩ := stringifyItems_inj (fun x hx => hv x (List.mem_cons_of_mem _ hx)) h'
    exact ⟨rfl, hab⟩

theorem stringifyMembers_inj : ∀ {ms ns : List (JsString × Json JsString)} {a b : JsString},
    (∀ m ∈ ms, Readable m.2) → stringifyMembers ms ++ a = stringifyMembers ns ++ b → ms = ns ∧ a = b
  | [], [], a, b, _, h => ⟨rfl, by simpa [stringifyMembers] using h⟩
  | [], (_, _) :: _, _, _, _, h => by simp [stringifyMembers] at h
  | (_, _) :: _, [], _, _, _, h => by simp [stringifyMembers] at h
  | (k, v) :: ms, (l, w) :: ns, a, b, hv, h => by
    simp only [stringifyMembers, List.cons_append, List.append_assoc, List.cons.injEq, true_and] at h
    obtain ⟨rfl, h'⟩ := quote_append_inj h
    obtain ⟨rfl, h''⟩ := hv (k, v) List.mem_cons_self (stops_members ms a) (stops_members ns b) (List.cons.inj h').2
    obtain ⟨rfl, hab⟩ := stringifyMembers_inj (fun x hx => hv x (List.mem_cons_of_mem _ hx)) h''
    exact ⟨rfl, hab⟩

theorem readable (v : Json JsString) : Readable v := by
  induction v using Json.ind with
  | null =>
    intro w a b _ _ h
    have hk := congrArg leadingKind h
    rw [leadingKind_stringify, leadingKind_stringify] at hk
    match w with
    | .null => exact ⟨rfl, List.append_cancel_left h⟩
    | .bool true | .bool false | .num _ | .str _ | .arr _ | .obj _ => simp [kind] at hk
  | bool x =>
    intro w a b _ _ h
    have hk := congrArg leadingKind h
    rw [leadingKind_stringify, leadingKind_stringify] at hk
    match x, w with
    | true, .bool true => exact ⟨rfl, List.append_cancel_left h⟩
    | false, .bool false => exact ⟨rfl, List.append_cancel_left h⟩
    | true, .null | true, .bool false | true, .num _ | true, .str _ | true, .arr _ | true, .obj _ => simp [kind] at hk
    | false, .null | false, .bool true | false, .num _ | false, .str _ | false, .arr _ | false, .obj _ =>
      simp [kind] at hk
  | num n =>
    intro w a b ha hb h
    have hk := congrArg leadingKind h
    rw [leadingKind_stringify, leadingKind_stringify] at hk
    match w with
    | .num m =>
      obtain ⟨hnm, hab⟩ := units_append_inj n.toText_chars m.toText_chars ha hb h
      exact ⟨by rw [Number.toText_inj hnm], hab⟩
    | .null | .bool true | .bool false | .str _ | .arr _ | .obj _ => simp [kind] at hk
  | str s =>
    intro w a b _ _ h
    have hk := congrArg leadingKind h
    rw [leadingKind_stringify, leadingKind_stringify] at hk
    match w with
    | .str t =>
      obtain ⟨rfl, hab⟩ := quote_append_inj h
      exact ⟨rfl, hab⟩
    | .null | .bool true | .bool false | .num _ | .arr _ | .obj _ => simp [kind] at hk
  | arr items ih =>
    intro w a b _ _ h
    have hk := congrArg leadingKind h
    rw [leadingKind_stringify, leadingKind_stringify] at hk
    match items, w with
    | [], .arr [] => exact ⟨rfl, List.append_cancel_left h⟩
    | [], .arr (w :: ws) =>
      simp only [stringify, List.cons_append, List.append_assoc, List.cons.injEq, true_and] at h
      exact absurd h.symm (stringify_ne_bracket w _ _)
    | v :: vs, .arr [] =>
      simp only [stringify, List.cons_append, List.append_assoc, List.cons.injEq, true_and] at h
      exact absurd h (stringify_ne_bracket v _ _)
    | v :: vs, .arr (w :: ws) =>
      simp only [stringify, List.cons_append, List.append_assoc, List.cons.injEq, true_and] at h
      obtain ⟨rfl, h'⟩ := ih v List.mem_cons_self (stops_items vs a) (stops_items ws b) h
      obtain ⟨rfl, hab⟩ := stringifyItems_inj (fun x hx => ih x (List.mem_cons_of_mem _ hx)) h'
      exact ⟨rfl, hab⟩
    | _, .null | _, .bool true | _, .bool false | _, .num _ | _, .str _ | _, .obj _ => simp [kind] at hk
  | obj members ih =>
    intro w a b _ _ h
    have hk := congrArg leadingKind h
    rw [leadingKind_stringify, leadingKind_stringify] at hk
    match members, w with
    | [], .obj [] => exact ⟨rfl, List.append_cancel_left h⟩
    | [], .obj ((l, w) :: ns) => simp [stringify, quote] at h
    | (k, v) :: ms, .obj [] => simp [stringify, quote] at h
    | (k, v) :: ms, .obj ((l, w) :: ns) =>
      simp only [stringify, List.cons_append, List.append_assoc, List.cons.injEq, true_and] at h
      obtain ⟨rfl, h'⟩ := quote_append_inj h
      obtain ⟨rfl, h''⟩ := ih (k, v) List.mem_cons_self (stops_members ms a) (stops_members ns b) (List.cons.inj h').2
      obtain ⟨rfl, hab⟩ := stringifyMembers_inj (fun x hx => ih x (List.mem_cons_of_mem _ hx)) h''
      exact ⟨rfl, hab⟩
    | _, .null | _, .bool true | _, .bool false | _, .num _ | _, .str _ | _, .arr _ => simp [kind] at hk

/-- A JSON text determines its value. -/
theorem stringify_inj {v w : Json JsString} (h : stringify v = stringify w) : v = w :=
  (readable v stops_nil stops_nil (by rw [h])).1

end Json

end PaymentOrchestration.Lib
