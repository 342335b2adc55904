/-
What holds of the connection manager in every run. `Inv` holds as long as no caller's `finally` forgets an
attempt that others still make; `representation` then says how the fields, the connections and the channels
go together, and `not_representation` how it fails when the manager misses an event.
-/
import PaymentOrchestration.ConnectionManager

namespace PaymentOrchestration

open Lib

namespace RabbitMqConnectionManager

/-! ## What the updates do to connections and channels -/

namespace State

variable {s : State} {id conn : ConnectionId} {ch c : ChannelId}

theorem connections_updateConnection {f : Connection → Connection} :
    (s.updateConnection id f).connections conn = (s.connections conn).map fun x => if conn = id then f x else x := by
  unfold updateConnection
  by_cases hc : conn = id
  · subst hc; simp
  · simp [hc]

theorem channels_updateChannel {f : Channel → Channel} :
    (s.updateChannel ch f).channels c = (s.channels c).map fun y => if c = ch then f y else y := by
  unfold updateChannel
  by_cases hc : c = ch
  · subst hc; simp
  · simp [hc]

theorem updateChannel_updateChannel {f g : Channel → Channel} :
    (s.updateChannel ch f).updateChannel ch g = s.updateChannel ch (g ∘ f) := by
  unfold updateChannel
  simp [Function.update_idem, Option.map_map]

end State

/-! ## The invariant -/

/-- The connection an attempt is opening a channel on. -/
def Attempt.opens : Attempt → Option ConnectionId
  | .createConfirmChannel connection | .assertExchange connection _ => some connection
  | _ => none

/-- Nothing is delivered on the channel any more: it was closed or has ended, or its connection. -/
def State.Dead (s : State) (y : Channel) : Prop :=
  y.closeCalled = true ∨ y.ended = true ∨
    ∃ x, s.connections y.connection = some x ∧ (x.ended = true ∨ x.closeCalled = true)

/-- What holds as long as no caller's `finally` forgets an attempt that others still make. -/
structure Inv (s : State) : Prop where
  connecting : ∀ a t, s.attempts a = some t → t.isSettled = false → s.connecting = some a
  idle : ∀ a t, s.attempts a = some t → t.isSettled = false → s.channel = none
  connect : ∀ a, s.attempts a = some .connect → s.connection = none
  opening : ∀ a t conn, s.attempts a = some t → t.opens = some conn → ∃ x, s.connections conn = some x ∧
    (s.connection = some conn ∨ s.connection = none ∧ x.ended = true)
  asserting : ∀ a conn ch, s.attempts a = some (.assertExchange conn ch) →
    ∃ y, s.channels ch = some y ∧ y.connection = conn ∧ y.listening = false
  channel : ∀ ch, s.channel = some ch → ∃ y, s.channels ch = some y ∧ y.forwarders = 1 ∧ y.listening = true ∧
    ((∃ x, s.connections y.connection = some x) ∧ ∀ conn, s.connection = some conn → y.connection = conn)
  detached : ∀ ch y, s.channels ch = some y → s.channel ≠ some ch → y.forwarders = 0
  dropped : ∀ ch y, s.channels ch = some y → y.listening = true → s.channel ≠ some ch → s.Dead y
  connection : ∀ conn, s.connection = some conn → ∃ x, s.connections conn = some x
  kept : ∀ conn x, s.connections conn = some x → s.connection = some conn ∨ x.closeCalled = true ∨ x.ended = true ∨
    s.closing = .closeChannel (some conn)
  closed : s.closing ≠ .notCalled → s.closed = true
  waiting : ∀ a', s.closing = .awaitConnecting a' → ∀ a t, s.attempts a = some t → t.isSettled = false → a = a'
  done : s.closing ≠ .notCalled → (∀ a, s.closing ≠ .awaitConnecting a) → s.connection = none ∧ s.channel = none ∧
    ∀ a t, s.attempts a = some t → t.isSettled = true

namespace Inv

variable {s s' : State} {a : AttemptId} {t : Attempt} {conn : ConnectionId} {ch : ChannelId} {k : CallerId}

theorem init : Inv State.initial := by
  constructor <;> simp [State.initial]

/-- A connection is marked. -/
theorem updateConnection (h : Inv s) (conn : ConnectionId) {f : Connection → Connection}
    (hf : ∀ x, (x.closeCalled = true → (f x).closeCalled = true) ∧ (x.ended = true → (f x).ended = true)) :
    Inv (s.updateConnection conn f) := by
  have hmap : ∀ {c x}, s.connections c = some x → ∃ x', (s.updateConnection conn f).connections c = some x' ∧
      (x.closeCalled = true → x'.closeCalled = true) ∧ (x.ended = true → x'.ended = true) := by
    intro c x hx
    rw [State.connections_updateConnection, hx]
    refine ⟨_, rfl, ?_⟩
    split
    · exact hf x
    · exact ⟨fun h => h, fun h => h⟩
  refine { h with opening := ?_, channel := ?_, dropped := ?_, connection := ?_, kept := ?_ }
  · intro a t c ht ho
    obtain ⟨x, hx, hor⟩ := h.opening a t c ht ho
    obtain ⟨x', hx', -, he⟩ := hmap hx
    exact ⟨x', hx', hor.imp_right fun hn => ⟨hn.1, he hn.2⟩⟩
  · intro c hc
    obtain ⟨y, hy, hone, hl, ⟨x, hx⟩, hconn⟩ := h.channel c hc
    obtain ⟨x', hx', -⟩ := hmap hx
    exact ⟨y, hy, hone, hl, ⟨x', hx'⟩, hconn⟩
  · intro c y hy hl hne
    rcases h.dropped c y hy hl hne with hd | hd | ⟨x, hx, hd⟩
    · exact .inl hd
    · exact .inr (.inl hd)
    · obtain ⟨x', hx', hcl, he⟩ := hmap hx
      exact .inr (.inr ⟨x', hx', hd.imp he hcl⟩)
  · intro c hc
    obtain ⟨x, hx⟩ := h.connection c hc
    obtain ⟨x', hx', -⟩ := hmap hx
    exact ⟨x', hx'⟩
  · intro c x' hx'
    rw [State.connections_updateConnection] at hx'
    obtain ⟨x, hx, rfl⟩ := Option.map_eq_some_iff.1 hx'
    refine (h.kept c x hx).imp_right (Or.imp ?_ (Or.imp_left ?_)) <;> split
    · exact (hf x).1
    · exact fun h => h
    · exact (hf x).2
    · exact fun h => h

/-- A channel is marked. -/
theorem updateChannel (h : Inv s) (ch : ChannelId) {f : Channel → Channel}
    (hf : ∀ y, (f y).connection = y.connection ∧ (f y).forwarders = y.forwarders ∧ (f y).listening = y.listening ∧
      (y.closeCalled = true → (f y).closeCalled = true) ∧ (y.ended = true → (f y).ended = true)) :
    Inv (s.updateChannel ch f) := by
  have hmap : ∀ {c y'}, (s.updateChannel ch f).channels c = some y' → ∃ y, s.channels c = some y ∧
      y'.connection = y.connection ∧ y'.forwarders = y.forwarders ∧ y'.listening = y.listening ∧
      (y.closeCalled = true → y'.closeCalled = true) ∧ (y.ended = true → y'.ended = true) := by
    intro c y' hy'
    rw [State.channels_updateChannel] at hy'
    obtain ⟨y, hy, rfl⟩ := Option.map_eq_some_iff.1 hy'
    refine ⟨y, hy, ?_⟩
    split
    · exact hf y
    · exact ⟨rfl, rfl, rfl, fun h => h, fun h => h⟩
  have hsome : ∀ {c y}, s.channels c = some y → ∃ y', (s.updateChannel ch f).channels c = some y' := by
    intro c y hy
    rw [State.channels_updateChannel, hy]
    exact ⟨_, rfl⟩
  refine { h with asserting := ?_, channel := ?_, detached := ?_, dropped := ?_ }
  · intro a conn c ht
    obtain ⟨y, hy, hconn, hl⟩ := h.asserting a conn c ht
    obtain ⟨y', hy'⟩ := hsome hy
    obtain ⟨y₀, hy₀, h1, -, h3, -⟩ := hmap hy'
    obtain rfl := Option.some.inj (hy.symm.trans hy₀)
    exact ⟨y', hy', h1.trans hconn, h3.trans hl⟩
  · intro c hc
    obtain ⟨y, hy, hone, hl, hconn⟩ := h.channel c hc
    obtain ⟨y', hy'⟩ := hsome hy
    obtain ⟨y₀, hy₀, h1, h2, h3, -⟩ := hmap hy'
    obtain rfl := Option.some.inj (hy.symm.trans hy₀)
    exact ⟨y', hy', h2.trans hone, h3.trans hl, by rw [h1]; exact hconn⟩
  · intro c y' hy' hne
    obtain ⟨y, hy, -, h2, -⟩ := hmap hy'
    rw [h2]; exact h.detached c y hy hne
  · intro c y' hy' hl hne
    obtain ⟨y, hy, h1, -, h3, h4, h5⟩ := hmap hy'
    unfold State.Dead
    rw [h1]
    exact (h.dropped c y hy (h3.symm.trans hl) hne).imp h4 (Or.imp_left h5)

/-- While a channel is stored no attempt is made. -/
theorem settled_of_channel (h : Inv s) (hch : s.channel = some ch) :
    ∀ a t, s.attempts a = some t → t.isSettled = true := by
  intro a t ht
  by_contra hs
  have := h.idle a t ht (by simpa using hs)
  rw [hch] at this; cases this

/-- While nobody is connecting no attempt is made. -/
theorem settled_of_idle (h : Inv s) (hnone : s.connecting = none) :
    ∀ a t, s.attempts a = some t → t.isSettled = true := by
  intro a t ht
  by_contra hs
  have := h.connecting a t ht (by simpa using hs)
  rw [hnone] at this; cases this

/-- The stored channel, on which nothing is delivered any more, is given up. -/
theorem dropChannel (h : Inv s) (hch : s.channel = some ch) (hdead : ∀ y, s.channels ch = some y → s.Dead y) :
    Inv { s.detachChannelListeners ch with channel := none } := by
  have hmap : ∀ {c y'}, (s.detachChannelListeners ch).channels c = some y' → ∃ y, s.channels c = some y ∧
      y' = if c = ch then { y with forwarders := y.forwarders - 1 } else y := by
    intro c y' hy'
    rw [State.detachChannelListeners, State.channels_updateChannel] at hy'
    obtain ⟨y, hy, rfl⟩ := Option.map_eq_some_iff.1 hy'
    exact ⟨y, hy, rfl⟩
  refine { h with
    idle := fun _ _ _ _ => rfl, asserting := ?_, channel := nofun, detached := ?_, dropped := ?_, done := ?_ }
  · intro a conn c ht
    exact absurd (h.settled_of_channel hch a _ ht) (by simp [Attempt.isSettled])
  · intro c y' hy' _
    obtain ⟨y, hy, rfl⟩ := hmap hy'
    by_cases hc : c = ch
    · subst hc
      obtain ⟨y₀, hy₀, hone, -⟩ := h.channel c hch
      obtain rfl := Option.some.inj (hy.symm.trans hy₀)
      simp [hone]
    · rw [if_neg hc]
      exact h.detached c y hy (by rw [hch]; exact fun he => hc (Option.some.inj he).symm)
  · intro c y' hy' hl _
    obtain ⟨y, hy, rfl⟩ := hmap hy'
    by_cases hc : c = ch
    · subst hc
      rw [if_pos rfl]
      exact hdead y hy
    · rw [if_neg hc] at hl ⊢
      exact h.dropped c y hy hl (by rw [hch]; exact fun he => hc (Option.some.inj he).symm)
  · intro h1 h2
    obtain ⟨hconn, -, hatt⟩ := h.done h1 h2
    exact ⟨hconn, rfl, hatt⟩

/-- The stored connection, which was closed or has ended, is given up. -/
theorem dropConnection (h : Inv s) (hconn : s.connection = some conn)
    (hdone : ∃ x, s.connections conn = some x ∧
      (x.ended = true ∨ x.closeCalled = true ∧ ∀ a t, s.attempts a = some t → t.opens ≠ some conn)) :
    Inv { s with connection := none } := by
  obtain ⟨x, hx, hdone⟩ := hdone
  refine { h with connect := fun _ _ => rfl, opening := ?_, channel := ?_, connection := nofun, kept := ?_, done := ?_ }
  · intro a t c ht ho
    obtain ⟨x', hx', hor⟩ := h.opening a t c ht ho
    refine ⟨x', hx', .inr ⟨rfl, ?_⟩⟩
    rcases hor with hc | ⟨hc, -⟩
    · obtain rfl := Option.some.inj (hconn.symm.trans hc)
      obtain rfl := Option.some.inj (hx.symm.trans hx')
      rcases hdone with he | ⟨-, hno⟩
      · exact he
      · exact absurd ho (hno a t ht)
    · rw [hconn] at hc; cases hc
  · intro c hc
    obtain ⟨y, hy, hone, hl, hsome, -⟩ := h.channel c hc
    exact ⟨y, hy, hone, hl, hsome, nofun⟩
  · intro c x' hx'
    rcases h.kept c x' hx' with hc | hc
    · obtain rfl := Option.some.inj (hconn.symm.trans hc)
      obtain rfl := Option.some.inj (hx.symm.trans hx')
      right
      rcases hdone with he | ⟨hcl, -⟩
      · exact .inr (.inl he)
      · exact .inl hcl
    · exact .inr hc
  · intro h1 h2
    obtain ⟨-, hch, hatt⟩ := h.done h1 h2
    exact ⟨rfl, hch, hatt⟩

/-- An attempt goes on. -/
theorem setAttempt (h : Inv s) {t₀ : Attempt} (ha : s.attempts a = some t₀) (hs : t₀.isSettled = false)
    (hc : t ≠ .connect) (hopen : ∀ conn, t.opens = some conn → ∃ x, s.connections conn = some x ∧
      (s.connection = some conn ∨ s.connection = none ∧ x.ended = true))
    (hassert : ∀ conn ch, t = .assertExchange conn ch →
      ∃ y, s.channels ch = some y ∧ y.connection = conn ∧ y.listening = false) :
    Inv (s.setAttempt a t) := by
  have hcases : ∀ {b u}, (s.setAttempt a t).attempts b = some u → b = a ∧ u = t ∨ b ≠ a ∧ s.attempts b = some u :=
    update_eq_some
  refine { h with
    connecting := ?_, idle := ?_, connect := ?_, opening := ?_, asserting := ?_, waiting := ?_, done := ?_ }
  · intro b u hu hus
    rcases hcases hu with ⟨rfl, rfl⟩ | ⟨-, hu⟩
    · exact h.connecting _ t₀ ha hs
    · exact h.connecting b u hu hus
  · intro b u hu hus
    rcases hcases hu with ⟨rfl, rfl⟩ | ⟨-, hu⟩
    · exact h.idle _ t₀ ha hs
    · exact h.idle b u hu hus
  · intro b hu
    rcases hcases hu with ⟨rfl, rfl⟩ | ⟨-, hu⟩
    · exact absurd rfl hc
    · exact h.connect b hu
  · intro b u conn hu ho
    rcases hcases hu with ⟨rfl, rfl⟩ | ⟨-, hu⟩
    · exact hopen conn ho
    · exact h.opening b u conn hu ho
  · intro b conn ch hu
    rcases hcases hu with ⟨rfl, heq⟩ | ⟨-, hu⟩
    · exact hassert conn ch heq.symm
    · exact h.asserting b conn ch hu
  · intro a' hw b u hu hus
    rcases hcases hu with ⟨rfl, rfl⟩ | ⟨-, hu⟩
    · exact h.waiting a' hw _ t₀ ha hs
    · exact h.waiting a' hw b u hu hus
  · intro h1 h2
    have := (h.done h1 h2).2.2 a t₀ ha
    rw [hs] at this; cases this

/-- An attempt goes on that holds no channel. -/
theorem setClosing (h : Inv s) {t₀ : Attempt} (ha : s.attempts a = some t₀) (hs : t₀.isSettled = false)
    (hc : t ≠ .connect) (ho : t.opens = none) : Inv (s.setAttempt a t) := by
  refine h.setAttempt ha hs hc (fun conn hconn => ?_) fun conn ch heq => ?_
  · rw [ho] at hconn; cases hconn
  · rw [heq] at ho; cases ho

theorem opens_of_settled {t : Attempt} (h : t.isSettled = true) : t.opens = none := by
  cases t <;> first | rfl | cases h

theorem unsettled_of_opens {t : Attempt} (h : t.opens = some conn) : t.isSettled = false := by
  by_contra hs
  rw [opens_of_settled (by simpa using hs)] at h; cases h

/-- At most one attempt is in progress. -/
theorem unsettled_unique (h : Inv s) {b : AttemptId} {u : Attempt} (hb : s.attempts b = some u)
    (hu : u.isSettled = false) (ha : s.attempts a = some t) (ht : t.isSettled = false) : b = a :=
  Option.some.inj ((h.connecting b u hb hu).symm.trans (h.connecting a t ha ht))

/-- A connection that came late is closed at once. -/
theorem addClosedConnection (h : Inv s) (hnew : s.connections conn = none) :
    Inv { s with connections := Function.update s.connections conn (some { closeCalled := true }) } := by
  have hold : ∀ {c x}, s.connections c = some x →
      Function.update s.connections conn (some { closeCalled := true }) c = some x := by
    intro c x hx
    rw [Function.update_of_ne]
    · exact hx
    · rintro rfl; rw [hnew] at hx; cases hx
  refine { h with opening := ?_, channel := ?_, dropped := ?_, connection := ?_, kept := ?_ }
  · intro b u c hu ho
    obtain ⟨x, hx, hor⟩ := h.opening b u c hu ho
    exact ⟨x, hold hx, hor⟩
  · intro c hc
    obtain ⟨y, hy, hone, hl, ⟨x, hx⟩, hconn⟩ := h.channel c hc
    exact ⟨y, hy, hone, hl, ⟨x, hold hx⟩, hconn⟩
  · intro c y hy hl hne
    rcases h.dropped c y hy hl hne with hd | hd | ⟨x, hx, hd⟩
    · exact .inl hd
    · exact .inr (.inl hd)
    · exact .inr (.inr ⟨x, hold hx, hd⟩)
  · intro c hc
    obtain ⟨x, hx⟩ := h.connection c hc
    exact ⟨x, hold hx⟩
  · intro c x hx
    rcases update_eq_some hx with ⟨-, rfl⟩ | ⟨-, hx⟩
    · exact .inr (.inl rfl)
    · exact h.kept c x hx

/-- A new connection is stored, and a channel is asked for. -/
theorem addConnection (h : Inv s) (ha : s.attempts a = some .connect) (hnew : s.connections conn = none) :
    Inv ({ s with connections := Function.update s.connections conn (some {}), connection := some conn }.setAttempt a
      (.createConfirmChannel conn)) := by
  have hnone := h.connect a ha
  have hold : ∀ {c x}, s.connections c = some x → Function.update s.connections conn (some {}) c = some x := by
    intro c x hx
    rw [Function.update_of_ne]
    · exact hx
    · rintro rfl; rw [hnew] at hx; cases hx
  have hother : ∀ {b u}, Function.update s.attempts a (some (.createConfirmChannel conn)) b = some u →
      u.isSettled = false → b = a ∧ u = .createConfirmChannel conn := by
    intro b u hu hs
    rcases update_eq_some hu with hu | ⟨hb, hu⟩
    · exact hu
    · exact absurd (h.unsettled_unique hu hs ha rfl) hb
  constructor
  · intro b u hu hs
    obtain ⟨rfl, -⟩ := hother hu hs
    exact h.connecting _ _ ha rfl
  · intro b u hu hs
    exact h.idle _ _ ha rfl
  · intro b hu
    exact absurd (hother hu rfl).2 nofun
  · intro b u c hu ho
    obtain ⟨-, rfl⟩ := hother hu (unsettled_of_opens ho)
    obtain rfl := Option.some.inj ho
    exact ⟨{}, Function.update_self .., .inl rfl⟩
  · intro b c ch hu
    exact absurd (hother hu rfl).2 nofun
  · intro c hc
    have hch : s.channel = some c := hc
    rw [h.idle _ _ ha rfl] at hch; cases hch
  · exact h.detached
  · intro c y hy hl hne
    rcases h.dropped c y hy hl hne with hd | hd | ⟨x, hx, hd⟩
    · exact .inl hd
    · exact .inr (.inl hd)
    · exact .inr (.inr ⟨x, hold hx, hd⟩)
  · intro c hc
    obtain rfl : conn = c := Option.some.inj hc
    exact ⟨{}, Function.update_self ..⟩
  · intro c x hx
    by_cases hc : c = conn
    · subst hc; exact .inl rfl
    · simp only [State.setAttempt, Function.update_of_ne hc] at hx
      refine (h.kept c x hx).imp_left fun hs => ?_
      rw [hnone] at hs; cases hs
  · exact h.closed
  · intro a' hw b u hu hs
    obtain ⟨rfl, -⟩ := hother hu hs
    exact h.waiting a' hw _ _ ha rfl
  · intro h1 h2
    have := (h.done h1 h2).2.2 a _ ha
    cases this

/-- A channel is created for an attempt. -/
theorem addChannel (h : Inv s) (hnew : s.channels ch = none) :
    Inv { s with channels := Function.update s.channels ch (some { connection := conn }) } := by
  have hold : ∀ {c y}, s.channels c = some y →
      Function.update s.channels ch (some { connection := conn }) c = some y := by
    intro c y hy
    rw [Function.update_of_ne]
    · exact hy
    · rintro rfl; rw [hnew] at hy; cases hy
  refine { h with asserting := ?_, channel := ?_, detached := ?_, dropped := ?_ }
  · intro b cn c hu
    obtain ⟨y, hy, h2⟩ := h.asserting b cn c hu
    exact ⟨y, hold hy, h2⟩
  · intro c hc
    obtain ⟨y, hy, h2⟩ := h.channel c hc
    exact ⟨y, hold hy, h2⟩
  · intro c y hy hne
    rcases update_eq_some hy with ⟨-, rfl⟩ | ⟨-, hy⟩
    · rfl
    · exact h.detached c y hy hne
  · intro c y hy hl hne
    rcases update_eq_some hy with ⟨-, rfl⟩ | ⟨-, hy⟩
    · cases hl
    · exact h.dropped c y hy hl hne

/-- The channel of an attempt that has just resolved is listened to and stored. -/
theorem storeChannel (h : Inv s) {y : Channel} (hsettled : ∀ a t, s.attempts a = some t → t.isSettled = true)
    (hnone : s.channel = none) (hy : s.channels ch = some y) (hx : ∃ x, s.connections y.connection = some x)
    (hconn : ∀ conn, s.connection = some conn → y.connection = conn)
    (hopen : s.closing ≠ .notCalled → ∃ a, s.closing = .awaitConnecting a) :
    Inv { s.attachChannelListeners ch with channel := some ch } := by
  have hnot : ∀ {b t}, s.attempts b = some t → t.isSettled = false → False := by
    intro b t ht hs
    rw [hsettled b t ht] at hs; cases hs
  have hmap : ∀ {c y'}, (s.attachChannelListeners ch).channels c = some y' → ∃ y, s.channels c = some y ∧
      y' = if c = ch then { y with forwarders := y.forwarders + 1, listening := true } else y := by
    intro c y' hy'
    rw [State.attachChannelListeners, State.channels_updateChannel] at hy'
    obtain ⟨y, hy, rfl⟩ := Option.map_eq_some_iff.1 hy'
    exact ⟨y, hy, rfl⟩
  refine { h with idle := ?_, asserting := ?_, channel := ?_, detached := ?_, dropped := ?_, done := ?_ }
  · exact fun b t ht hs => (hnot ht hs).elim
  · exact fun b cn c ht => (hnot ht rfl).elim
  · intro c hc
    obtain rfl : ch = c := Option.some.inj hc
    refine ⟨{ y with forwarders := y.forwarders + 1, listening := true }, ?_, ?_, rfl, hx, hconn⟩
    · change (s.attachChannelListeners ch).channels ch = _
      rw [State.attachChannelListeners, State.channels_updateChannel, hy, Option.map_some, if_pos rfl]
    · have := h.detached ch y hy (by rw [hnone]; nofun)
      change y.forwarders + 1 = 1
      omega
  · intro c y' hy' hne
    obtain ⟨y₀, hy₀, rfl⟩ := hmap hy'
    have hc : c ≠ ch := fun he => hne (by rw [he])
    rw [if_neg hc]
    exact h.detached c y₀ hy₀ (by rw [hnone]; nofun)
  · intro c y' hy' hl hne
    obtain ⟨y₀, hy₀, rfl⟩ := hmap hy'
    have hc : c ≠ ch := fun he => hne (by rw [he])
    rw [if_neg hc] at hl ⊢
    exact h.dropped c y₀ hy₀ hl (by rw [hnone]; nofun)
  · intro h1 h2
    obtain ⟨b, hb⟩ := hopen h1
    exact absurd hb (h2 b)

/-- `closeResources` has taken the fields, and goes on with what it has taken. -/
theorem beginClosing (h : Inv s) {closing : Closing} (hch : s.channel = none) (hclosed : s.closed = true)
    (hsettled : ∀ a t, s.attempts a = some t → t.isSettled = true) (hold : ∀ c, s.closing ≠ .closeChannel c)
    (hkept : ∀ conn, s.connection = some conn → closing = .closeChannel (some conn) ∨
      ∃ x, s.connections conn = some x ∧ x.closeCalled = true)
    (hnew : ∀ a, closing ≠ .awaitConnecting a) : Inv { s with connection := none, closing := closing } := by
  have hnot : ∀ {b t}, s.attempts b = some t → t.isSettled = false → False := by
    intro b t ht hs
    rw [hsettled b t ht] at hs; cases hs
  refine { h with
    connect := fun _ _ => rfl, opening := ?_, channel := ?_, connection := nofun, kept := ?_,
    closed := fun _ => hclosed, waiting := ?_, done := fun _ _ => ⟨rfl, hch, hsettled⟩ }
  · intro b t c ht ho
    rw [opens_of_settled (hsettled b t ht)] at ho; cases ho
  · intro c hc
    rw [show s.channel = some c from hc] at hch; cases hch
  · intro c x hx
    rcases h.kept c x hx with hc | hc | hc | hc
    · rcases hkept c hc with hk | ⟨x', hx', hk⟩
      · exact .inr (.inr (.inr hk))
      · obtain rfl := Option.some.inj (hx.symm.trans hx')
        exact .inr (.inl hk)
    · exact .inr (.inl hc)
    · exact .inr (.inr (.inl hc))
    · exact absurd hc (hold _)
  · exact fun a' ha' => absurd ha' (hnew a')

/-- `closeResources` goes on. -/
theorem goOnClosing (h : Inv s) {closing : Closing} (h1 : s.closing ≠ .notCalled)
    (h2 : ∀ a, s.closing ≠ .awaitConnecting a)
    (hkept : ∀ conn x, s.closing = .closeChannel (some conn) → s.connections conn = some x → x.closeCalled = true)
    (hnew : ∀ a, closing ≠ .awaitConnecting a) : Inv { s with closing := closing } := by
  refine { h with kept := ?_, closed := fun _ => h.closed h1, waiting := ?_, done := fun _ _ => h.done h1 h2 }
  · intro c x hx
    rcases h.kept c x hx with hc | hc | hc | hc
    · exact .inl hc
    · exact .inr (.inl hc)
    · exact .inr (.inr (.inl hc))
    · exact .inr (.inl (hkept c x hc hx))
  · exact fun a' ha' => absurd ha' (hnew a')

/-! ### The routines keep it -/

theorem safeCloseConnection (h : Inv s) (conn : ConnectionId) : Inv (s.safeCloseConnection conn) :=
  h.updateConnection conn fun _ => ⟨fun _ => rfl, fun hx => hx⟩

theorem safeCloseChannel (h : Inv s) : Inv (s.safeCloseChannel ch) :=
  h.updateChannel ch fun _ => ⟨rfl, rfl, rfl, fun _ => rfl, fun hy => hy⟩

/-- The stored channel is given up and closed. -/
theorem giveUpChannel (h : Inv s) (hch : s.channel = some ch) :
    Inv (({ s with channel := none }.detachChannelListeners ch).safeCloseChannel ch) := by
  have hdead : ∀ y, (s.safeCloseChannel ch).channels ch = some y → (s.safeCloseChannel ch).Dead y := by
    intro y hy
    rw [State.safeCloseChannel, State.channels_updateChannel] at hy
    obtain ⟨y₀, -, rfl⟩ := Option.map_eq_some_iff.1 hy
    left; rw [if_pos rfl]
  -- the order of the two updates of the channel does not matter
  have hinv := h.safeCloseChannel.dropChannel hch hdead
  have heq : (s.safeCloseChannel ch).detachChannelListeners ch = (s.detachChannelListeners ch).safeCloseChannel ch := by
    simp only [State.safeCloseChannel, State.detachChannelListeners, State.updateChannel_updateChannel]
    rfl
  rw [heq] at hinv
  exact hinv

theorem invalidateChannel (h : Inv s) : Inv (s.invalidateChannel ch) := by
  unfold State.invalidateChannel
  split
  · exact h
  · rename_i hch
    exact h.giveUpChannel (not_not.1 hch)

theorem invalidateConnection (h : Inv s) (hend : ∀ x, s.connections conn = some x → x.ended = true) :
    Inv (s.invalidateConnection conn) := by
  unfold State.invalidateConnection
  split
  · exact h
  rename_i hconn
  have hconn : s.connection = some conn := not_not.1 hconn
  obtain ⟨x, hx⟩ := h.connection conn hconn
  cases hch : s.channel with
  | none =>
    have hinv := h.dropConnection hconn ⟨x, hx, .inl (hend x hx)⟩
    have heq : { s with channel := none, connection := none } = { s with connection := none } := by rw [← hch]
    simp only
    rw [heq]; exact hinv
  | some ch =>
    have hdead : ∀ y, s.channels ch = some y → s.Dead y := by
      intro y hy
      obtain ⟨y₀, hy₀, -, -, -, hyc⟩ := h.channel ch hch
      obtain rfl := Option.some.inj (hy.symm.trans hy₀)
      rw [State.Dead, hyc conn hconn]
      exact .inr (.inr ⟨x, hx, .inl (hend x hx)⟩)
    exact (h.dropChannel hch hdead).dropConnection hconn ⟨x, hx, .inl (hend x hx)⟩

theorem invalidateTransport (h : Inv s) (hend : ∀ y, s.channels ch = some y → y.ended = true) :
    Inv (s.invalidateTransport ch conn) := by
  unfold State.invalidateTransport
  split
  · exact h
  rename_i hch
  have hch : s.channel = some ch := not_not.1 hch
  have hsettled := h.settled_of_channel hch
  have hinv := (h.dropChannel hch fun y hy => .inr (.inl (hend y hy))).safeCloseConnection conn
  simp only
  split
  · rename_i hconn
    obtain ⟨x, hx⟩ := h.connection conn hconn
    refine hinv.dropConnection hconn ⟨{ x with closeCalled := true }, ?_, .inr ⟨rfl, ?_⟩⟩
    · change (s.safeCloseConnection conn).connections conn = _
      rw [State.safeCloseConnection, State.connections_updateConnection, hx, Option.map_some, if_pos rfl]
    · intro a t ht ho
      rw [opens_of_settled (hsettled a t ht)] at ho; cases ho
  · exact hinv

theorem takeResources (h : Inv s) (hclosed : s.closed = true)
    (hsettled : ∀ a t, s.attempts a = some t → t.isSettled = true)
    (hold : ∀ c, s.closing ≠ .closeChannel c) : Inv s.takeResources := by
  unfold State.takeResources
  cases hch : s.channel with
  | some ch =>
    exact (h.giveUpChannel hch).beginClosing rfl hclosed hsettled hold
      (fun conn hconn => .inl (by rw [show s.connection = some conn from hconn])) nofun
  | none =>
    cases hconn : s.connection with
    | some conn =>
      obtain ⟨x, hx⟩ := h.connection conn hconn
      have hmarked : (s.safeCloseConnection conn).connections conn = some { x with closeCalled := true } := by
        rw [State.safeCloseConnection, State.connections_updateConnection, hx, Option.map_some, if_pos rfl]
      have hinv : Inv { s.safeCloseConnection conn with connection := none, closing := .closeConnection } := by
        refine (h.safeCloseConnection _).beginClosing hch hclosed hsettled hold (fun c hc => .inr ?_) nofun
        obtain rfl : conn = c := Option.some.inj (hconn.symm.trans hc)
        exact ⟨_, hmarked, rfl⟩
      have heq : { s.safeCloseConnection conn with connection := none, closing := .closeConnection } =
          { { s with channel := none, connection := none }.safeCloseConnection conn with
            closing := .closeConnection } := by
        rw [← hch]; rfl
      rw [heq] at hinv
      exact hinv
    | none =>
      have hinv : Inv { s with connection := none, closing := .closed } := by
        refine h.beginClosing hch hclosed hsettled hold (fun c hc => ?_) nofun
        rw [hconn] at hc; cases hc
      have heq : { s with connection := none, closing := .closed } =
          { { s with channel := none, connection := none } with closing := .closed } := by rw [← hch]
      rw [heq] at hinv
      exact hinv

theorem close (h : Inv s) : Inv s.close := by
  unfold State.close
  split
  · exact h
  rename_i hnot
  have hnot : s.closing = .notCalled := not_not.1 hnot
  have hclosed : Inv { s with closed := true } := { h with closed := fun _ => rfl }
  simp only
  split
  · rename_i a ha
    have ha : s.connecting = some a := ha
    refine { hclosed with
      kept := ?_, closed := fun _ => rfl, waiting := ?_, done := fun _ h2 => absurd rfl (h2 a) }
    · intro c x hx
      rcases h.kept c x hx with hc | hc | hc | hc
      · exact .inl hc
      · exact .inr (.inl hc)
      · exact .inr (.inr (.inl hc))
      · rw [hnot] at hc; cases hc
    · intro a' ha' b t ht hs
      obtain rfl : a = a' := Closing.awaitConnecting.inj ha'
      exact Option.some.inj ((h.connecting b t ht hs).symm.trans ha)
  · rename_i hnone
    have hnone : s.connecting = none := hnone
    exact hclosed.takeResources rfl (h.settled_of_idle hnone) (by rw [hnot]; nofun)

/-- An attempt begins, which no other is in the way of. -/
theorem connectConfirmChannel (h : Inv s) (hnone : s.connecting = none) (hch : s.channel = none)
    (hopen : s.closed = false) : Inv { s.setAttempt a s.connectConfirmChannel with connecting := some a } := by
  have hsettled := h.settled_of_idle hnone
  have hnot : s.closing = .notCalled := by
    by_contra hc
    have := h.closed hc
    rw [hopen] at this; cases this
  have hcases : ∀ {b u}, (s.setAttempt a s.connectConfirmChannel).attempts b = some u → u.isSettled = false →
      b = a ∧ u = s.connectConfirmChannel := by
    intro b u hu hs
    rcases update_eq_some hu with hu | ⟨-, hu⟩
    · exact hu
    · rw [hsettled b u hu] at hs; cases hs
  refine { h with
    connecting := ?_, idle := fun _ _ _ _ => hch, connect := ?_, opening := ?_, asserting := ?_,
      waiting := ?_, done := ?_ }
  · intro b u hu hs
    rw [(hcases hu hs).1]
  · intro b hu
    have hstart := (hcases hu rfl).2
    unfold State.connectConfirmChannel at hstart
    split at hstart
    · cases hstart
    · assumption
  · intro b u conn hu ho
    obtain ⟨-, rfl⟩ := hcases hu (unsettled_of_opens ho)
    unfold State.connectConfirmChannel at ho
    split at ho
    · rename_i c hc
      obtain rfl := Option.some.inj ho
      obtain ⟨x, hx⟩ := h.connection c hc
      exact ⟨x, hx, .inl hc⟩
    · cases ho
  · intro b conn ch hu
    have hstart := (hcases hu rfl).2
    unfold State.connectConfirmChannel at hstart
    split at hstart <;> cases hstart
  · exact fun a' ha' => absurd (hnot.symm.trans ha') nofun
  · exact fun hc => absurd hnot hc

/-- The `catch` block of an attempt: its connection is given up and closed. -/
theorem failed (h : Inv s) {error : String} (ha : s.attempts a = some t) (ho : t.opens = some conn) :
    Inv (((if s.connection = some conn then { s with connection := none } else s).safeCloseConnection conn).setAttempt a
      (.closeFailed conn error)) := by
  have hs : t.isSettled = false := unsettled_of_opens ho
  have hinv := (h.setClosing (t := .closeFailed conn error) ha hs nofun rfl).safeCloseConnection conn
  split
  · rename_i hconn
    obtain ⟨x, hx⟩ := h.connection conn hconn
    refine hinv.dropConnection hconn ⟨{ x with closeCalled := true }, ?_, .inr ⟨rfl, ?_⟩⟩
    · change (s.safeCloseConnection conn).connections conn = _
      rw [State.safeCloseConnection, State.connections_updateConnection, hx, Option.map_some, if_pos rfl]
    · -- the attempt is the only one that was opening a channel
      intro b u hu ho'
      have hu' : Function.update s.attempts a (some (.closeFailed conn error)) b = some u := hu
      rcases update_eq_some hu' with ⟨-, rfl⟩ | ⟨hb, hu⟩
      · cases ho'
      · exact hb (h.unsettled_unique hu (unsettled_of_opens ho') ha hs)
  · exact hinv

end Inv

/-! ## What a step does -/

/-- The branches of the manager's code that come to an await, a return or a throw. -/
inductive StepCase (s : State) : Action → State → Prop
  /-- `getConfirmChannel` throws, for the manager is closed. -/
  | refused {k a} :
      s.callers k = none → s.closed = true → StepCase s (.getConfirmChannel k a) (s.setCaller k (.threw isClosed))
  /-- It returns the stored channel. -/
  | found {k a ch} : s.callers k = none → s.closed = false → s.channel = some ch →
      StepCase s (.getConfirmChannel k a) (s.setCaller k (.returned ch))
  /-- It awaits the attempt in progress. -/
  | joined {k a b} : s.callers k = none → s.closed = false → s.channel = none → s.connecting = some b →
      StepCase s (.getConfirmChannel k a) (s.setCaller k (.awaiting b))
  /-- It begins an attempt. -/
  | began {k a} : s.callers k = none → s.closed = false → s.channel = none → s.connecting = none → s.attempts a = none →
      StepCase s (.getConfirmChannel k a)
        ({ s.setAttempt a s.connectConfirmChannel with connecting := some a }.setCaller k (.awaiting a))
  /-- A connection comes after `close()`. -/
  | connectedLate {a conn} : s.attempts a = some .connect → s.connections conn = none → s.closed = true →
      StepCase s (.connected a conn)
        (({ s with connections := Function.update s.connections conn (some {}) }.safeCloseConnection conn).setAttempt a
          (.closeLate conn))
  | connected {a conn} : s.attempts a = some .connect → s.connections conn = none → s.closed = false →
      StepCase s (.connected a conn)
        ({ s with connections := Function.update s.connections conn (some {}), connection := some conn }.setAttempt a
          (.createConfirmChannel conn))
  | connectFailed {a error} : s.attempts a = some .connect →
      StepCase s (.connectFailed a error) (s.setAttempt a (.rejected error))
  | channelCreated {a conn ch} : s.attempts a = some (.createConfirmChannel conn) → s.channels ch = none →
      StepCase s (.channelCreated a ch)
        ({ s with channels := Function.update s.channels ch (some { connection := conn }) }.setAttempt a
          (.assertExchange conn ch))
  | exchangeAsserted {a conn ch} : s.attempts a = some (.assertExchange conn ch) →
      StepCase s (.exchangeAsserted a)
        ({ s.attachChannelListeners ch with channel := some ch }.setAttempt a (.resolved ch))
  | failed {a t conn error} : s.attempts a = some t → t.opens = some conn →
      StepCase s (.failed a error)
        (((if s.connection = some conn then { s with connection := none } else s).safeCloseConnection conn).setAttempt a
          (.closeFailed conn error))
  /-- The `safeClose` of a late connection has settled. -/
  | lateClosed {a conn} : s.attempts a = some (.closeLate conn) →
      StepCase s (.safeClosed a) (s.setAttempt a (.rejected isClosed))
  /-- The `safeClose` in the `catch` block has settled. -/
  | failedClosed {a conn error} : s.attempts a = some (.closeFailed conn error) →
      StepCase s (.safeClosed a) (s.setAttempt a (.rejected error))
  | returned {k a ch} : s.callers k = some (.awaiting a) → s.attempts a = some (.resolved ch) →
      StepCase s (.resumed k) { s.setCaller k (.returned ch) with connecting := none }
  | threw {k a error} : s.callers k = some (.awaiting a) → s.attempts a = some (.rejected error) →
      StepCase s (.resumed k) { s.setCaller k (.threw error) with connecting := none }
  | invalidateChannel {ch} : StepCase s (.invalidateChannel ch) (s.invalidateChannel ch)
  | close : StepCase s .close s.close
  /-- `closeResources` has waited for the attempt. -/
  | waited {a t} : s.closing = .awaitConnecting a → s.attempts a = some t → t.isSettled = true →
      StepCase s .closeResumed s.takeResources
  | channelClosed {conn} : s.closing = .closeChannel (some conn) →
      StepCase s .closeResumed { s.safeCloseConnection conn with closing := .closeConnection }
  | resourcesClosed : s.closing = .closeChannel none ∨ s.closing = .closeConnection →
      StepCase s .closeResumed { s with closing := .closed }
  | connectionEnded {conn x} : s.connections conn = some x →
      StepCase s (.connectionEnded conn)
        ((s.updateConnection conn fun x => { x with ended := true }).invalidateConnection conn)
  | channelEnded {ch y} : s.channels ch = some y → y.listening = true →
      StepCase s (.channelEnded ch)
        ((s.updateChannel ch fun y => { y with ended := true }).invalidateTransport ch y.connection)
  /-- Nobody listens to the channel yet. -/
  | unheard {ch y} : s.channels ch = some y → y.listening = false →
      StepCase s (.channelEnded ch) (s.updateChannel ch fun y => { y with ended := true })

section Steps

variable {s s' : State} {action : Action}

theorem step_cases (hs : s.step action = some s') : StepCase s action s' := by
  cases action with
  | getConfirmChannel k a =>
    simp only [State.step, State.getConfirmChannel] at hs
    split at hs
    · cases hs
    rename_i hk
    have hk : s.callers k = none := not_not.1 hk
    split at hs
    · rename_i hclosed; cases hs; exact .refused hk hclosed
    rename_i hopen
    have hopen : s.closed = false := by simpa using hopen
    split at hs
    · rename_i hch; cases hs; exact .found hk hopen hch
    rename_i hch
    split at hs
    · rename_i hb; cases hs; exact .joined hk hopen hch hb
    rename_i hnone
    split at hs
    · cases hs
    · rename_i ha; cases hs; exact .began hk hopen hch hnone (not_not.1 ha)
  | connected a conn =>
    simp only [State.step] at hs
    split at hs
    · rename_i ha
      split at hs
      · rename_i hclosed; cases hs; exact .connectedLate ha.1 ha.2 hclosed
      · rename_i hopen; cases hs; exact .connected ha.1 ha.2 (by simpa using hopen)
    · cases hs
  | connectFailed a error =>
    simp only [State.step] at hs
    split at hs
    · rename_i ha; cases hs; exact .connectFailed ha
    · cases hs
  | channelCreated a ch =>
    simp only [State.step] at hs
    split at hs
    · rename_i conn ha
      split at hs
      · rename_i hnew; cases hs; exact .channelCreated ha hnew
      · cases hs
    · cases hs
  | exchangeAsserted a =>
    simp only [State.step] at hs
    split at hs
    · rename_i conn ch ha; cases hs; exact .exchangeAsserted ha
    · cases hs
  | failed a error =>
    simp only [State.step] at hs
    split at hs
    · rename_i conn ha; cases hs; exact .failed ha rfl
    · rename_i conn ch ha; cases hs; exact .failed ha rfl
    · cases hs
  | safeClosed a =>
    simp only [State.step] at hs
    split at hs
    · rename_i conn ha; cases hs; exact .lateClosed ha
    · rename_i conn error ha; cases hs; exact .failedClosed ha
    · cases hs
  | resumed k =>
    simp only [State.step] at hs
    split at hs
    · rename_i a hk
      split at hs
      · rename_i ch ha; cases hs; exact .returned hk ha
      · rename_i error ha; cases hs; exact .threw hk ha
      · cases hs
    · cases hs
  | invalidateChannel ch => cases hs; exact .invalidateChannel
  | close => cases hs; exact .close
  | closeResumed =>
    simp only [State.step] at hs
    split at hs
    · rename_i a hclosing
      split at hs
      · rename_i ha
        obtain ⟨t, ht, hsettled⟩ := (Option.any_eq_true _ _).1 ha
        cases hs; exact .waited hclosing ht hsettled
      · cases hs
    · rename_i conn hclosing; cases hs; exact .channelClosed hclosing
    · rename_i hclosing; cases hs; exact .resourcesClosed (.inl hclosing)
    · rename_i hclosing; cases hs; exact .resourcesClosed (.inr hclosing)
    · cases hs
  | connectionEnded conn =>
    simp only [State.step] at hs
    split at hs
    · cases hs
    rename_i hconn
    obtain ⟨x, hx⟩ := Option.ne_none_iff_exists'.1 hconn
    cases hs; exact .connectionEnded hx
  | channelEnded ch =>
    simp only [State.step] at hs
    split at hs
    · cases hs
    rename_i y hy
    split at hs
    · rename_i hl; cases hs; exact .channelEnded hy hl
    · rename_i hl; cases hs; exact .unheard hy (by simpa using hl)

end Steps

/-- No caller's `finally` forgets an attempt that others still make. -/
def ownFinally (s : State) : Action → Prop
  | .resumed k => ∀ a a', s.callers k = some (.awaiting a) → s.connecting = some a' → a' ≠ a →
      (s.attempts a').any Attempt.isSettled = true
  | _ => True

section Steps

variable {s s' : State} {action : Action}

/-- A caller's `finally` forgets its attempt, which has settled. -/
theorem Inv.forget (h : Inv s) {k : CallerId} {a : AttemptId} {t : Attempt} (hok : ownFinally s (.resumed k))
    (hk : s.callers k = some (.awaiting a)) (ha : s.attempts a = some t) (hsettled : t.isSettled = true) :
    Inv { s with connecting := none } := by
  refine { h with connecting := fun b u hb hs => ?_ }
  have hconnecting := h.connecting b u hb hs
  by_cases hba : b = a
  · subst hba
    obtain rfl := Option.some.inj (hb.symm.trans ha)
    rw [hs] at hsettled; cases hsettled
  · have hother := hok a b hk hconnecting hba
    rw [hb] at hother; simp [hs] at hother

/-- An attempt resolves, and its channel is stored. -/
theorem Inv.exchangeAsserted (h : Inv s) {a : AttemptId} {conn : ConnectionId} {ch : ChannelId}
    (ha : s.attempts a = some (.assertExchange conn ch)) :
    Inv ({ s.attachChannelListeners ch with channel := some ch }.setAttempt a (.resolved ch)) := by
  have hinv := h.setClosing (t := .resolved ch) ha rfl (fun h => by cases h) rfl
  obtain ⟨y, hy, hyc, -⟩ := h.asserting a conn ch ha
  obtain ⟨x, hx, hor⟩ := h.opening a _ conn ha rfl
  refine hinv.storeChannel (y := y) ?_ (h.idle a _ ha rfl) hy ⟨x, by rw [hyc]; exact hx⟩ ?_ ?_
  · -- the attempt is the only one in progress
    intro b t ht
    rcases update_eq_some ht with ⟨-, rfl⟩ | ⟨hb, ht⟩
    · rfl
    · by_contra hs
      exact hb (h.unsettled_unique ht (by simpa using hs) ha rfl)
  · intro c hc
    rcases hor with hc' | ⟨hc', -⟩
    · exact hyc.trans (Option.some.inj (hc'.symm.trans hc))
    · rw [show s.connection = some c from hc] at hc'; cases hc'
  · intro h1
    by_contra h2
    have := (h.done h1 fun b hb => h2 ⟨b, hb⟩).2.2 a _ ha
    cases this

theorem Inv.step (h : Inv s) (hok : ownFinally s action) (hs : s.step action = some s') : Inv s' := by
  cases step_cases hs with
  | refused | found | joined => exact { h with }
  | began _ hopen hch hnone _ => exact { h.connectConfirmChannel hnone hch hopen with }
  | @connectedLate a conn ha hnew _ =>
    have hadd := (h.addClosedConnection hnew).setClosing (t := .closeLate conn) ha rfl (fun h => by cases h) rfl
    have heq : ({ s with connections := Function.update s.connections conn (some {}) }.safeCloseConnection conn) =
        { s with connections := Function.update s.connections conn (some { closeCalled := true }) } := by
      simp [State.safeCloseConnection, State.updateConnection]
    rw [heq]; exact hadd
  | connected ha hnew _ => exact h.addConnection ha hnew
  | connectFailed ha | lateClosed ha | failedClosed ha => exact h.setClosing ha rfl (fun h => by cases h) rfl
  | channelCreated ha hnew =>
    refine (h.addChannel hnew).setAttempt ha rfl (fun h => by cases h) (fun c hc => h.opening _ _ c ha hc) ?_
    rintro c ch' ⟨⟩
    exact ⟨_, Function.update_self .., rfl, rfl⟩
  | exchangeAsserted ha => exact h.exchangeAsserted ha
  | failed ha ho => exact h.failed ha ho
  | returned hk ha | threw hk ha => exact { h.forget hok hk ha rfl with }
  | invalidateChannel => exact h.invalidateChannel
  | close => exact h.close
  | @waited a t hclosing ha hsettled =>
    refine h.takeResources (h.closed (by rw [hclosing]; simp)) (fun b u hb => ?_) (by rw [hclosing]; simp)
    by_contra hs
    obtain rfl := h.waiting a hclosing b u hb (by simpa using hs)
    obtain rfl := Option.some.inj (hb.symm.trans ha)
    exact hs hsettled
  | @channelClosed conn hclosing =>
    refine (h.safeCloseConnection conn).goOnClosing ?_ ?_ ?_ (fun _ h => by cases h)
    · change s.closing ≠ _; rw [hclosing]; simp
    · change ∀ a, s.closing ≠ _; rw [hclosing]; simp
    · intro c x hc hx
      obtain rfl : conn = c := Option.some.inj (Closing.closeChannel.inj (hclosing.symm.trans hc))
      rw [State.safeCloseConnection, State.connections_updateConnection] at hx
      obtain ⟨x₀, -, rfl⟩ := Option.map_eq_some_iff.1 hx
      rw [if_pos rfl]
  | resourcesClosed hclosing =>
    rcases hclosing with hclosing | hclosing
    all_goals
      refine h.goOnClosing (by rw [hclosing]; simp) (by rw [hclosing]; simp) (fun c x hc _ => ?_)
        (fun _ h => by cases h)
      rw [hclosing] at hc; cases hc
  | @connectionEnded conn _ _ =>
    have hmark := h.updateConnection conn (f := fun x => { x with ended := true }) fun x => ⟨fun hx => hx, fun _ => rfl⟩
    refine hmark.invalidateConnection fun x hx => ?_
    rw [State.connections_updateConnection] at hx
    obtain ⟨x₀, -, rfl⟩ := Option.map_eq_some_iff.1 hx
    rw [if_pos rfl]
  | @channelEnded ch _ _ _ =>
    have hmark := h.updateChannel ch (f := fun y => { y with ended := true })
      fun y => ⟨rfl, rfl, rfl, fun hy => hy, fun _ => rfl⟩
    refine hmark.invalidateTransport fun y hy => ?_
    rw [State.channels_updateChannel] at hy
    obtain ⟨y₀, -, rfl⟩ := Option.map_eq_some_iff.1 hy
    rw [if_pos rfl]
  | unheard =>
    exact h.updateChannel _ (f := fun y => { y with ended := true })
      fun y => ⟨rfl, rfl, rfl, fun hy => hy, fun _ => rfl⟩

/-- When an attempt resolves, its connection has not ended. -/
def liveWhenAsserted (s : State) : Action → Prop
  | .exchangeAsserted a => ∀ conn ch x, s.attempts a = some (.assertExchange conn ch) → s.connections conn = some x →
      x.ended = false
  | _ => True

/-- A channel is stored with a connection only. -/
def State.Stored (s : State) : Prop := ∀ ch, s.channel = some ch → ∃ conn, s.connection = some conn

theorem State.Stored.of_none (h : s.channel = none) : s.Stored := by
  intro ch hch
  rw [h] at hch; cases hch

theorem takeResources_channel (s : State) : s.takeResources.channel = none := by
  unfold State.takeResources
  split <;> rfl

theorem Inv.stored (h : Inv s) (hst : s.Stored) (hlive : liveWhenAsserted s action) (hs : s.step action = some s') :
    s'.Stored := by
  cases step_cases hs with
  | refused | found | joined | began | connectedLate | connectFailed | channelCreated | lateClosed | failedClosed
  | returned | threw | channelClosed | resourcesClosed | unheard => exact hst
  | @connected a conn => exact fun ch _ => ⟨conn, rfl⟩
  | @exchangeAsserted a conn ch ha =>
    obtain ⟨x, hx, hor⟩ := h.opening a _ conn ha rfl
    rcases hor with hconn | ⟨-, hend⟩
    · exact fun _ _ => ⟨conn, hconn⟩
    · rw [hlive conn ch x ha hx] at hend; cases hend
  | @failed a t conn error ha ho =>
    have hnone := h.idle a t ha (unsettled_of_opens ho)
    refine .of_none ?_
    split <;> exact hnone
  | invalidateChannel =>
    unfold State.invalidateChannel
    split
    · exact hst
    · exact .of_none rfl
  | close =>
    unfold State.close
    split
    · exact hst
    simp only
    split
    · exact hst
    · exact .of_none (takeResources_channel _)
  | waited => exact .of_none (takeResources_channel s)
  | connectionEnded =>
    unfold State.invalidateConnection
    split
    · exact hst
    · exact .of_none rfl
  | channelEnded =>
    unfold State.invalidateTransport
    split
    · exact hst
    · refine .of_none ?_
      simp only
      split <;> rfl

/-- `close()` has resolved for good. -/
theorem closing_closed (h : s.closing = .closed) (hs : s.step action = some s') : s'.closing = .closed := by
  cases step_cases hs with
  | refused | found | joined | began | connectedLate | connected | connectFailed | channelCreated | exchangeAsserted
  | lateClosed | failedClosed | returned | threw | unheard => exact h
  | failed => split <;> exact h
  | waited hclosing | channelClosed hclosing => rw [h] at hclosing; cases hclosing
  | resourcesClosed => rfl
  | close =>
    have hcalled : s.closing ≠ .notCalled := by rw [h]; simp
    rw [State.close, if_pos hcalled]; exact h
  | invalidateChannel =>
    unfold State.invalidateChannel
    split <;> exact h
  | connectionEnded =>
    unfold State.invalidateConnection
    split
    · exact h
    simp only
    split <;> exact h
  | channelEnded =>
    unfold State.invalidateTransport
    split
    · exact h
    simp only
    split <;> exact h

/-- What the manager's fields and connections look like. -/
structure Sound (s : State) : Prop where
  channel : ∀ ch, s.channel = some ch → ∃ y, s.channels ch = some y ∧ y.forwarders = 1 ∧
    ∀ conn, s.connection = some conn → conn = y.connection
  connections : ∀ conn x, s.connections conn = some x → s.connection ≠ some conn →
    x.closeCalled = true ∨ x.ended = true ∨ s.closing = .closeChannel (some conn)
  closed : s.closing = .closed → s.connection = none ∧ s.channel = none ∧
    ∀ conn x, s.connections conn = some x → x.closeCalled = true ∨ x.ended = true

/-- The stored channel forwards its returned messages once, and is one of the stored connection if there is one,
which there is when no connection is lost unseen; a connection that is not stored was closed or has ended, or is
the one that `close()` closes next; and `close()` leaves nothing stored and no connection open, for good. -/
theorem representation (h : system.Reach ownFinally s) : Sound s ∧
    (system.Reach (fun s action => ownFinally s action ∧ liveWhenAsserted s action) s → ∀ ch, s.channel = some ch →
      ∃ y, s.channels ch = some y ∧ s.connection = some y.connection) ∧
    (s.closing = .closed → ∀ s', system.Steps System.anyStep s s' → s'.closing = .closed) := by
  have hi : Inv s := h.invariant Inv.init fun _ _ _ hi hown hs => hi.step hown hs
  have hsound : Sound s := by
    refine ⟨?_, ?_, ?_⟩
    · intro ch hch
      obtain ⟨y, hy, hone, -, -, hconn⟩ := hi.channel ch hch
      exact ⟨y, hy, hone, fun conn hc => (hconn conn hc).symm⟩
    · intro conn x hx hne
      exact (hi.kept conn x hx).resolve_left hne
    · intro hclosed
      obtain ⟨hconn, hch, -⟩ := hi.done (by rw [hclosed]; nofun) (by rw [hclosed]; nofun)
      refine ⟨hconn, hch, fun conn x hx => ?_⟩
      rcases hi.kept conn x hx with hk | hk | hk | hk
      · rw [hconn] at hk; cases hk
      · exact .inl hk
      · exact .inr hk
      · rw [hclosed] at hk; cases hk
  refine ⟨hsound, fun hlive ch hch => ?_, fun hclosed s' hsteps => ?_⟩
  · -- the connection of a stored channel has not been lost
    have hstored : Inv s ∧ s.Stored := by
      refine hlive.invariant (P := fun s => Inv s ∧ s.Stored) ⟨Inv.init, .of_none rfl⟩ ?_
      rintro s action s' ⟨hi, hst⟩ ⟨hown, hlive⟩ hs
      exact ⟨hi.step hown hs, hi.stored hst hlive hs⟩
    obtain ⟨conn, hc⟩ := hstored.2 ch hch
    obtain ⟨y, hy, -, hconn⟩ := hsound.channel ch hch
    exact ⟨y, hy, by rw [hc, hconn conn hc]⟩
  · exact hsteps.invariant (P := fun s => s.closing = .closed) hclosed fun _ _ _ hc _ hs => closing_closed hc hs

end Steps

/-! ## Runs -/

namespace Sample

/-- A caller has the manager open a channel. -/
def openRun : List Action := [.getConfirmChannel 0 0, .connected 0 0, .channelCreated 0 0]

/-- The state after `openRun`: the attempt awaits `assertExchange`. -/
def opening : State := (system.runFrom system.init openRun).get (by decide)

/-- The channel is stored. -/
def opened : State := (opening.step (.exchangeAsserted 0)).get (by decide)

theorem opening_reach {ok : State → Action → Prop} (hok : ∀ action ∈ openRun, ∀ s, ok s action) :
    system.Reach ok opening :=
  System.steps_of_runFrom openRun hok (Option.some_get _).symm

/-- The connection emits `close` before the answer of `assertExchange` is processed. -/
def lostRun : List Action := openRun ++ [.connectionEnded 0, .exchangeAsserted 0]

/-- Two callers wait for an attempt that fails. When the first has gone on, a third caller begins a new attempt,
which the second one's `finally` forgets, so that a fourth caller begins another beside it. -/
def forgottenRun : List Action :=
  [.getConfirmChannel 0 0, .getConfirmChannel 1 0, .connectFailed 0 "ECONNREFUSED", .resumed 0, .getConfirmChannel 2 1,
    .resumed 1, .getConfirmChannel 3 2, .connected 1 1, .connected 2 2]

/-- `close()` waits for the channel to close. -/
def closingRun : List Action := openRun ++ [.exchangeAsserted 0, .resumed 0, .close]

def lost : State := (system.runFrom system.init lostRun).get (by decide)

def forgotten : State := (system.runFrom system.init forgottenRun).get (by decide)

def closing : State := (system.runFrom system.init closingRun).get (by decide)

end Sample

/-- The channel that the run has opened is stored with its connection, and forwards once. -/
theorem representation_opened : Sound Sample.opened ∧
    (∀ ch, Sample.opened.channel = some ch →
      ∃ y, Sample.opened.channels ch = some y ∧ Sample.opened.connection = some y.connection) ∧
    (Sample.opened.closing = .closed → ∀ s', system.Steps System.anyStep Sample.opened s' → s'.closing = .closed) := by
  have hreach : system.Reach (fun s action => ownFinally s action ∧ liveWhenAsserted s action) Sample.opened := by
    refine (Sample.opening_reach ?_).step (a := .exchangeAsserted 0) ⟨trivial, ?_⟩ (Option.some_get _).symm
    · simp only [Sample.openRun, List.forall_mem_cons, List.not_mem_nil, false_implies, implies_true, and_true]
      exact ⟨fun _ => ⟨trivial, trivial⟩, fun _ => ⟨trivial, trivial⟩, fun _ => ⟨trivial, trivial⟩⟩
    · intro conn ch x ha hx
      have hconn : Sample.opening.attempts 0 = some (.assertExchange 0 0) := by decide
      have hconnection : Sample.opening.connections 0 = some {} := by decide
      rw [hconn] at ha
      cases ha
      rw [hconnection] at hx
      cases hx
      rfl
  obtain ⟨hsound, hlive, hclosed⟩ := representation (hreach.mono fun _ _ hok => hok.1)
  exact ⟨hsound, hlive hreach, hclosed⟩

/-- In general none of it holds: a channel can be stored whose connection is gone, a connection can be lost
without being closed, and `close()` keeps a connection open that it has already taken from its field. -/
theorem not_representation :
    (system.Reach System.anyStep Sample.lost ∧ Sample.lost.channel = some 0 ∧ Sample.lost.connection = none) ∧
    (system.Reach System.anyStep Sample.forgotten ∧ Sample.forgotten.connection = some 2 ∧
      Sample.forgotten.connections 1 = some { closeCalled := false, ended := false }) ∧
    (system.Reach System.anyStep Sample.closing ∧ Sample.closing.connection = none ∧
      Sample.closing.connections 0 = some { closeCalled := false, ended := false }) :=
  ⟨⟨System.reach_of_run (Option.some_get _).symm, by decide, by decide⟩,
    ⟨System.reach_of_run (Option.some_get _).symm, by decide, by decide⟩,
    ⟨System.reach_of_run (Option.some_get _).symm, by decide, by decide⟩⟩

end RabbitMqConnectionManager

end PaymentOrchestration
