/-
What a caller of the connection manager gets: a channel that the manager listens to, and that it gives up only when
nothing is delivered on it any more. A manager with one caller at a time keeps its invariant without further
assumptions.
-/
import PaymentOrchestration.ConnectionInvariant

namespace PaymentOrchestration

open Lib

namespace RabbitMqConnectionManager

/-! ## What only grows -/

/-- Channels and connections are not forgotten, and neither is what has happened to them. -/
structure Grows (s s' : State) : Prop where
  channels : ∀ ch y, s.channels ch = some y → ∃ y', s'.channels ch = some y' ∧ y'.connection = y.connection ∧
    (y.listening = true → y'.listening = true) ∧ (y.closeCalled = true → y'.closeCalled = true) ∧
    (y.ended = true → y'.ended = true)
  connections : ∀ conn x, s.connections conn = some x → ∃ x', s'.connections conn = some x' ∧
    (x.closeCalled = true → x'.closeCalled = true) ∧ (x.ended = true → x'.ended = true)

/-- The calls in progress are where they were. -/
structure SameCalls (s s' : State) : Prop where
  callers : s'.callers = s.callers
  connecting : s'.connecting = s.connecting
  attempts : s'.attempts = s.attempts

/-- What the routines that give up a channel or a connection do. -/
def Quiet (s s' : State) : Prop := Grows s s' ∧ SameCalls s s'

section Quiet

variable {s s' s'' : State} {id conn : ConnectionId} {ch : ChannelId}

@[refl] theorem Grows.refl (s : State) : Grows s s :=
  ⟨fun _ y hy => ⟨y, hy, rfl, fun h => h, fun h => h, fun h => h⟩, fun _ x hx => ⟨x, hx, fun h => h, fun h => h⟩⟩

theorem Grows.trans (h : Grows s s') (h' : Grows s' s'') : Grows s s'' := by
  refine ⟨fun ch y hy => ?_, fun conn x hx => ?_⟩
  · obtain ⟨y', hy', h1, h2, h3, h4⟩ := h.channels ch y hy
    obtain ⟨y'', hy'', h1', h2', h3', h4'⟩ := h'.channels ch y' hy'
    exact ⟨y'', hy'', h1'.trans h1, h2' ∘ h2, h3' ∘ h3, h4' ∘ h4⟩
  · obtain ⟨x', hx', h1, h2⟩ := h.connections conn x hx
    obtain ⟨x'', hx'', h1', h2'⟩ := h'.connections conn x' hx'
    exact ⟨x'', hx'', h1' ∘ h1, h2' ∘ h2⟩

/-- Steps that touch neither channels nor connections. -/
theorem Grows.of_eq (hch : s'.channels = s.channels) (hconn : s'.connections = s.connections) : Grows s s' := by
  refine ⟨fun ch y hy => ⟨y, by rw [hch]; exact hy, rfl, fun h => h, fun h => h, fun h => h⟩,
    fun conn x hx => ⟨x, ?_, ?_⟩⟩
  · rw [hconn]; exact hx
  · exact ⟨fun h => h, fun h => h⟩

theorem SameCalls.trans (h : SameCalls s s') (h' : SameCalls s' s'') : SameCalls s s'' :=
  ⟨h'.callers.trans h.callers, h'.connecting.trans h.connecting, h'.attempts.trans h.attempts⟩

theorem Quiet.trans (h : Quiet s s') (h' : Quiet s' s'') : Quiet s s'' := ⟨h.1.trans h'.1, h.2.trans h'.2⟩

/-- Only other fields change. -/
theorem Quiet.of_eq (hch : s'.channels = s.channels) (hconn : s'.connections = s.connections)
    (hcalls : SameCalls s s') : Quiet s s' := ⟨.of_eq hch hconn, hcalls⟩

theorem Quiet.updateConnection {f : Connection → Connection}
    (hf : ∀ x, (x.closeCalled = true → (f x).closeCalled = true) ∧ (x.ended = true → (f x).ended = true)) :
    Quiet s (s.updateConnection id f) := by
  refine ⟨⟨fun ch y hy => ⟨y, hy, rfl, fun h => h, fun h => h, fun h => h⟩, fun conn x hx => ?_⟩, rfl, rfl, rfl⟩
  rw [State.connections_updateConnection, hx]
  refine ⟨_, rfl, ?_⟩
  split
  · exact hf x
  · exact ⟨fun h => h, fun h => h⟩

theorem Quiet.updateChannel {f : Channel → Channel}
    (hf : ∀ y, (f y).connection = y.connection ∧ (y.listening = true → (f y).listening = true) ∧
      (y.closeCalled = true → (f y).closeCalled = true) ∧ (y.ended = true → (f y).ended = true)) :
    Quiet s (s.updateChannel ch f) := by
  refine ⟨⟨fun c y hy => ?_, fun conn x hx => ⟨x, hx, fun h => h, fun h => h⟩⟩, rfl, rfl, rfl⟩
  rw [State.channels_updateChannel, hy]
  refine ⟨_, rfl, ?_⟩
  split
  · exact hf y
  · exact ⟨rfl, fun h => h, fun h => h, fun h => h⟩

theorem Quiet.safeCloseConnection : Quiet s (s.safeCloseConnection conn) :=
  .updateConnection fun _ => ⟨fun _ => rfl, fun h => h⟩

theorem Quiet.safeCloseChannel : Quiet s (s.safeCloseChannel ch) :=
  .updateChannel fun _ => ⟨rfl, fun h => h, fun _ => rfl, fun h => h⟩

theorem Quiet.detachChannelListeners : Quiet s (s.detachChannelListeners ch) :=
  .updateChannel fun _ => ⟨rfl, fun h => h, fun h => h, fun h => h⟩

/-- Up to the fields that hold neither channels, connections nor calls. -/
theorem Quiet.congr (h : Quiet s s') (hch : s''.channels = s'.channels) (hconn : s''.connections = s'.connections)
    (hcalls : SameCalls s' s'') : Quiet s s'' :=
  h.trans (.of_eq hch hconn hcalls)

theorem Quiet.refl (s : State) : Quiet s s := .of_eq rfl rfl ⟨rfl, rfl, rfl⟩

theorem Quiet.giveUpChannel : Quiet s ((s.detachChannelListeners ch).safeCloseChannel ch) :=
  Quiet.detachChannelListeners.trans .safeCloseChannel

theorem Quiet.giveUpTransport : Quiet s ((s.detachChannelListeners ch).safeCloseConnection conn) :=
  Quiet.detachChannelListeners.trans .safeCloseConnection

theorem Quiet.invalidateChannel : Quiet s (s.invalidateChannel ch) := by
  unfold State.invalidateChannel
  split
  · exact .refl s
  · exact Quiet.giveUpChannel.congr rfl rfl ⟨rfl, rfl, rfl⟩

theorem Quiet.invalidateTransport : Quiet s (s.invalidateTransport ch conn) := by
  unfold State.invalidateTransport
  split
  · exact .refl s
  simp only
  split <;> exact Quiet.giveUpTransport.congr rfl rfl ⟨rfl, rfl, rfl⟩

theorem Quiet.invalidateConnection : Quiet s (s.invalidateConnection conn) := by
  unfold State.invalidateConnection
  split
  · exact .refl s
  simp only
  split
  · exact Quiet.detachChannelListeners.congr rfl rfl ⟨rfl, rfl, rfl⟩
  · exact .of_eq rfl rfl ⟨rfl, rfl, rfl⟩

theorem Quiet.takeResources : Quiet s s.takeResources := by
  unfold State.takeResources
  simp only
  split
  · exact Quiet.giveUpChannel.congr rfl rfl ⟨rfl, rfl, rfl⟩
  · exact Quiet.safeCloseConnection.congr rfl rfl ⟨rfl, rfl, rfl⟩
  · exact .of_eq rfl rfl ⟨rfl, rfl, rfl⟩

theorem Quiet.close : Quiet s s.close := by
  unfold State.close
  split
  · exact .refl s
  simp only
  split
  · exact .of_eq rfl rfl ⟨rfl, rfl, rfl⟩
  · have hclosed : Quiet s { s with closed := true } := .of_eq rfl rfl ⟨rfl, rfl, rfl⟩
    exact hclosed.trans .takeResources

end Quiet

/-! ## What a step does to the calls -/

/-- How a step changes the calls of `getConfirmChannel` and the attempts. -/
inductive CallsCase (s : State) : Action → State → Prop
  /-- No call goes on. -/
  | quiet {a s'} : Quiet s s' → CallsCase s a s'
  /-- An attempt goes on, or is settled by an error. -/
  | attempt {a b t s'} : Grows s s' → s'.callers = s.callers → s'.connecting = s.connecting →
      s'.attempts = Function.update s.attempts b (some t) → (∀ ch, t ≠ .resolved ch) → CallsCase s a s'
  /-- An attempt has resolved. -/
  | resolved {b conn ch s'} : Grows s s' → s'.callers = s.callers → s'.connecting = s.connecting →
      s.attempts b = some (.assertExchange conn ch) →
      s'.attempts = Function.update s.attempts b (some (.resolved ch)) →
      s'.channels ch = (s.channels ch).map (fun y => { y with forwarders := y.forwarders + 1, listening := true }) →
      CallsCase s (.exchangeAsserted b) s'
  /-- `getConfirmChannel` returns the stored channel, or rejects. -/
  | answered {k a caller} : (∀ ch, caller = .returned ch → s.channel = some ch) → (∀ b, caller ≠ .awaiting b) →
      CallsCase s (.getConfirmChannel k a) (s.setCaller k caller)
  /-- It awaits the attempt in progress. -/
  | joined {k a b} : s.connecting = some b → CallsCase s (.getConfirmChannel k a) (s.setCaller k (.awaiting b))
  /-- It begins an attempt. -/
  | began {k a} : s.connecting = none → CallsCase s (.getConfirmChannel k a)
      ({ s.setAttempt a s.connectConfirmChannel with connecting := some a }.setCaller k (.awaiting a))
  /-- A caller goes on. -/
  | resumed {k b caller} : s.callers k = some (.awaiting b) →
      (∀ ch, caller = .returned ch → s.attempts b = some (.resolved ch)) →
      (∀ b, caller ≠ .awaiting b) → CallsCase s (.resumed k) { s.setCaller k caller with connecting := none }

section Steps

variable {s s' : State} {action : Action}

theorem Grows.addConnection {conn : ConnectionId} (hnew : s.connections conn = none) (x : Connection) :
    Grows s { s with connections := Function.update s.connections conn (some x) } := by
  refine ⟨fun ch y hy => ⟨y, hy, rfl, fun h => h, fun h => h, fun h => h⟩,
    fun c x' hx' => ⟨x', ?_, fun h => h, fun h => h⟩⟩
  refine (Function.update_of_ne ?_ _ _).trans hx'
  rintro rfl; rw [hnew] at hx'; cases hx'

theorem Grows.addChannel {ch : ChannelId} (hnew : s.channels ch = none) (y : Channel) :
    Grows s { s with channels := Function.update s.channels ch (some y) } := by
  refine ⟨fun c y' hy' => ⟨y', ?_, rfl, fun h => h, fun h => h, fun h => h⟩,
    fun c x hx => ⟨x, hx, fun h => h, fun h => h⟩⟩
  refine (Function.update_of_ne ?_ _ _).trans hy'
  rintro rfl; rw [hnew] at hy'; cases hy'

theorem calls_of_step (hs : s.step action = some s') : CallsCase s action s' := by
  cases step_cases hs with
  | refused => exact .answered (fun _ h => by cases h) (fun _ h => by cases h)
  | found _ _ hch => exact .answered (fun c hc => by cases hc; exact hch) (fun _ h => by cases h)
  | joined _ _ _ hb => exact .joined hb
  | began _ _ _ hnone _ => exact .began hnone
  | connectedLate _ hnew _ =>
    have hadd := Grows.addConnection hnew {}
    exact .attempt (hadd.trans (Quiet.safeCloseConnection.1.trans (.of_eq rfl rfl))) rfl rfl rfl (fun _ h => by cases h)
  | connected _ hnew _ =>
    have hadd := Grows.addConnection hnew {}
    exact .attempt (hadd.trans (.of_eq rfl rfl)) rfl rfl rfl (fun _ h => by cases h)
  | connectFailed | lateClosed | failedClosed =>
    exact .attempt (.of_eq rfl rfl) rfl rfl rfl (fun _ h => by cases h)
  | @channelCreated a conn ch _ hnew =>
    have hadd := Grows.addChannel hnew { connection := conn }
    exact .attempt (hadd.trans (.of_eq rfl rfl)) rfl rfl rfl (fun _ h => by cases h)
  | @exchangeAsserted a conn ch ha =>
    have hattach : Quiet s (s.attachChannelListeners ch) := .updateChannel fun _ =>
        ⟨rfl, fun _ => rfl, fun h => h, fun h => h⟩
    refine .resolved (hattach.1.trans (.of_eq rfl rfl)) rfl rfl ha rfl ?_
    simp only [State.setAttempt, State.attachChannelListeners, State.channels_updateChannel, if_true]
  | @failed a t conn error ha _ =>
    have hfail : Grows s ((if s.connection = some conn then { s with connection := none }
        else s).safeCloseConnection conn) := by
      split
      · exact Quiet.safeCloseConnection.1.trans (.of_eq rfl rfl)
      · exact Quiet.safeCloseConnection.1
    exact .attempt (t := .closeFailed conn error) (hfail.trans (.of_eq rfl rfl)) (by split <;> rfl)
      (by split <;> rfl) (by split <;> rfl) (fun _ h => by cases h)
  | returned hk hb => exact .resumed hk (fun c hc => by cases hc; exact hb) (fun _ h => by cases h)
  | threw hk => exact .resumed hk (fun _ h => by cases h) (fun _ h => by cases h)
  | invalidateChannel => exact .quiet .invalidateChannel
  | close => exact .quiet .close
  | waited => exact .quiet .takeResources
  | channelClosed => exact .quiet (Quiet.safeCloseConnection.congr rfl rfl ⟨rfl, rfl, rfl⟩)
  | resourcesClosed => exact .quiet (.of_eq rfl rfl ⟨rfl, rfl, rfl⟩)
  | @connectionEnded conn _ _ =>
    have hmark : Quiet s (s.updateConnection conn fun x => { x with ended := true }) :=
      .updateConnection fun _ => ⟨fun h => h, fun _ => rfl⟩
    exact .quiet (hmark.trans .invalidateConnection)
  | @channelEnded ch _ _ _ =>
    have hmark : Quiet s (s.updateChannel ch fun y => { y with ended := true }) :=
      .updateChannel fun _ => ⟨rfl, fun h => h, fun h => h, fun _ => rfl⟩
    exact .quiet (hmark.trans .invalidateTransport)
  | @unheard ch _ _ _ =>
    exact .quiet (.updateChannel fun _ => ⟨rfl, fun h => h, fun h => h, fun _ => rfl⟩)

theorem CallsCase.grows (h : CallsCase s action s') : Grows s s' := by
  cases h with
  | quiet h => exact h.1
  | attempt h | resolved h => exact h
  | answered | joined | began | resumed => exact .of_eq rfl rfl

end Steps

/-! ## One caller at a time -/

/-- The manager listens to the channel, or has listened to it. -/
def State.Heard (s : State) (ch : ChannelId) : Prop := ∃ y, s.channels ch = some y ∧ y.listening = true

/-- What holds while `getConfirmChannel` is not called again before it has settled: `current` is the call that has
not settled yet, if there is one. -/
structure Alone (s : State) (current : Option CallerId) : Prop where
  inv : Inv s
  awaiting : ∀ k b, s.callers k = some (.awaiting b) → s.connecting = some b ∧ current = some k
  resolved : ∀ b ch, s.attempts b = some (.resolved ch) → s.Heard ch
  returned : ∀ k ch, s.callers k = some (.returned ch) → s.Heard ch

/-- The call that has not settled after an action. -/
def currentAfter (current : Option CallerId) : Action → Option CallerId
  | .getConfirmChannel k _ => some k
  | _ => current

section Alone

variable {s s' : State} {action : Action} {current : Option CallerId} {ch : ChannelId}

theorem State.Heard.grows (h : s.Heard ch) (hg : Grows s s') : s'.Heard ch := by
  obtain ⟨y, hy, hl⟩ := h
  obtain ⟨y', hy', -, hl', -⟩ := hg.channels ch y hy
  exact ⟨y', hy', hl' hl⟩

/-- Once nothing is delivered on a channel, nothing ever is. -/
theorem State.Dead.grows {y : Channel} (h : s.Dead y) (hy : s.channels ch = some y) (hg : Grows s s') :
    ∃ y', s'.channels ch = some y' ∧ s'.Dead y' := by
  obtain ⟨y', hy', hconn, -, hclose, hend⟩ := hg.channels ch y hy
  refine ⟨y', hy', ?_⟩
  rcases h with h | h | ⟨x, hx, h⟩
  · exact .inl (hclose h)
  · exact .inr (.inl (hend h))
  · obtain ⟨x', hx', hc, he⟩ := hg.connections _ x hx
    exact .inr (.inr ⟨x', by rw [hconn]; exact hx', h.imp he hc⟩)

theorem Alone.init : Alone State.initial none where
  inv := Inv.init
  awaiting := fun _ _ h => by cases h
  resolved := fun _ _ h => by cases h
  returned := fun _ _ h => by cases h

/-- A single caller's `finally` forgets the attempt it has waited for. -/
theorem Alone.ownFinally (h : Alone s current) : ownFinally s action := by
  unfold RabbitMqConnectionManager.ownFinally
  split
  · intro a a' hk hc hne
    exact absurd (Option.some.inj ((h.awaiting _ a hk).1.symm.trans hc)).symm hne
  · trivial

/-- The current call has settled, and its caller goes on. -/
theorem Alone.release {k : CallerId} (h : Alone s (some k)) (hk : ∀ b, s.callers k ≠ some (.awaiting b)) :
    Alone s none := by
  refine { h with awaiting := fun k' b hb => ?_ }
  obtain ⟨-, hcur⟩ := h.awaiting k' b hb
  obtain rfl := Option.some.inj hcur
  exact absurd hb (hk b)

/-- A channel that a caller may hold is stored, or nothing is delivered on it. -/
theorem Alone.stored_or_dead (h : Alone s current) {y : Channel} (hy : s.channels ch = some y)
    (hl : y.listening = true) : s.channel = some ch ∧ y.forwarders = 1 ∨ s.Dead y := by
  by_cases hch : s.channel = some ch
  · obtain ⟨y', hy', hone, -⟩ := h.inv.channel ch hch
    obtain rfl := Option.some.inj (hy.symm.trans hy')
    exact .inl ⟨hch, hone⟩
  · exact .inr (h.inv.dropped ch y hy hl hch)

/-- A call that is still awaited after an action is the current one. -/
theorem Alone.awaiting_after (h : Alone s current) (hnone : ∀ k a, action = .getConfirmChannel k a → current = none)
    {k : CallerId} {b : AttemptId} (hb : s.callers k = some (.awaiting b)) :
    s.connecting = some b ∧ currentAfter current action = some k := by
  obtain ⟨hconnecting, hcur⟩ := h.awaiting k b hb
  refine ⟨hconnecting, ?_⟩
  cases action with
  | getConfirmChannel k' a => rw [hnone k' a rfl] at hcur; cases hcur
  | connected | connectFailed | channelCreated | exchangeAsserted | failed | safeClosed | resumed | invalidateChannel
  | close | closeResumed | connectionEnded | channelEnded => exact hcur

theorem Alone.step (h : Alone s current) (hs : s.step action = some s')
    (hnone : ∀ k a, action = .getConfirmChannel k a → current = none) : Alone s' (currentAfter current action) := by
  have hinv := h.inv.step h.ownFinally hs
  have hcalls := calls_of_step hs
  have hgrows := hcalls.grows
  -- no call is awaited while another one begins
  have hno : ∀ {k a}, action = .getConfirmChannel k a → ∀ k' b, s.callers k' ≠ some (.awaiting b) := by
    intro k a ha k' b hb
    have hcur := (h.awaiting k' b hb).2
    rw [hnone k a ha] at hcur; cases hcur
  cases hcalls with
  | quiet hq =>
    refine ⟨hinv, fun k b hb => ?_, fun b ch hb => ?_, fun k ch hk => ?_⟩
    · rw [hq.2.callers] at hb
      rw [hq.2.connecting]; exact h.awaiting_after hnone hb
    · rw [hq.2.attempts] at hb; exact (h.resolved b ch hb).grows hgrows
    · rw [hq.2.callers] at hk; exact (h.returned k ch hk).grows hgrows
  | @attempt _ a t _ hg hcallers hconnecting hattempts hne =>
    refine ⟨hinv, fun k b hb => ?_, fun b ch hb => ?_, fun k ch hk => ?_⟩
    · rw [hcallers] at hb
      rw [hconnecting]; exact h.awaiting_after hnone hb
    · rw [hattempts] at hb
      rcases update_eq_some hb with ⟨rfl, ht⟩ | ⟨-, hb⟩
      · exact absurd ht.symm (hne ch)
      · exact (h.resolved b ch hb).grows hg
    · rw [hcallers] at hk; exact (h.returned k ch hk).grows hg
  | @resolved a conn c _ hg hcallers hconnecting ha hattempts hchannels =>
    refine ⟨hinv, fun k b hb => ?_, fun b ch hb => ?_, fun k ch hk => ?_⟩
    · rw [hcallers] at hb
      rw [hconnecting]; exact h.awaiting_after hnone hb
    · rw [hattempts] at hb
      rcases update_eq_some hb with ⟨rfl, ht⟩ | ⟨-, hb⟩
      · cases ht
        obtain ⟨y, hy, -⟩ := h.inv.asserting b conn c ha
        rw [hy] at hchannels
        exact ⟨_, hchannels, rfl⟩
      · exact (h.resolved b ch hb).grows hg
    · rw [hcallers] at hk; exact (h.returned k ch hk).grows hg
  | @answered k a caller hstored hne =>
    refine ⟨hinv, fun k' b hb => ?_, h.resolved, fun k' ch hk => ?_⟩
    · rcases update_eq_some hb with ⟨rfl, heq⟩ | ⟨-, hb⟩
      · exact absurd heq.symm (hne b)
      · exact absurd hb (hno rfl k' b)
    · rcases update_eq_some hk with ⟨rfl, heq⟩ | ⟨-, hk⟩
      · obtain ⟨y, hy, -, hl, -⟩ := h.inv.channel ch (hstored ch heq.symm)
        exact ⟨y, hy, hl⟩
      · exact h.returned k' ch hk
  | @joined k a b hb =>
    refine ⟨hinv, fun k' b' hb' => ?_, h.resolved, fun k' ch hk => ?_⟩
    · rcases update_eq_some hb' with ⟨rfl, heq⟩ | ⟨-, hb'⟩
      · cases heq; exact ⟨hb, rfl⟩
      · exact absurd hb' (hno rfl k' b')
    · rcases update_eq_some hk with ⟨-, heq⟩ | ⟨-, hk⟩
      · cases heq
      · exact h.returned k' ch hk
  | @began k a hidle =>
    refine ⟨hinv, fun k' b' hb' => ?_, fun b ch hb => ?_, fun k' ch hk => ?_⟩
    · rcases update_eq_some hb' with ⟨rfl, heq⟩ | ⟨-, hb'⟩
      · cases heq; exact ⟨rfl, rfl⟩
      · exact absurd hb' (hno rfl k' b')
    · rcases update_eq_some hb with ⟨-, heq⟩ | ⟨-, hb⟩
      · unfold State.connectConfirmChannel at heq
        split at heq <;> cases heq
      · exact h.resolved b ch hb
    · rcases update_eq_some hk with ⟨-, heq⟩ | ⟨-, hk⟩
      · cases heq
      · exact h.returned k' ch hk
  | @resumed k b caller hk hresolved hne =>
    have hcur := (h.awaiting k b hk).2
    refine ⟨hinv, fun k' b' hb' => ?_, h.resolved, fun k' c hk' => ?_⟩
    · rcases update_eq_some hb' with ⟨rfl, heq⟩ | ⟨hkk, hb'⟩
      · exact absurd heq.symm (hne b')
      · have hcur' := (h.awaiting k' b' hb').2
        rw [hcur] at hcur'
        exact absurd (Option.some.inj hcur').symm hkk
    · rcases update_eq_some hk' with ⟨rfl, heq⟩ | ⟨-, hk'⟩
      · exact h.resolved b c (hresolved c heq.symm)
      · exact h.returned k' c hk'

end Alone

end RabbitMqConnectionManager

end PaymentOrchestration
