import Mathlib.Data.List.Nodup
import Simplev.Net.TcpServerBook
import Simplev.Net.TcpServerTurns

/-!
# `Net.Correctness.Lifecycle` — the connections of a server, from accept to destruction

- **`Lives`.** What one connection carries through its life beyond `Wired`: which calls of the loops it
  has had, that it is up during its events, and that between the two halves of `connectDestroyed` its
  functor still runs.
- **`Served`, `Kept`.** The same of every connection of a server, with the server's book.
- **`server_lifecycle`.** Who calls a connection and when, what `connections_` holds, and that nothing
  destroys a connection too early.
-/

namespace Simplev

open Foundation TcpConnection

namespace Session

variable {v v₁ v' : Session} {entries : List Entry} {c : TcpConnection} {actions : List Action}
  {fs : List String}

/-! ## What `Wired` says of `state_` -/

/-- `connectEstablished` is on its way to a new connection only. -/
theorem Wired.connecting_of_opens (h : v.Wired) (hopens : 0 < v.opensPending) :
    v.conn.state_ = .kConnecting := by
  obtain ⟨stage, messages, hat⟩ := h.stage
  rw [hat.opens] at hopens
  cases stage with
  | opening => exact hat.state
  | up => exact absurd hopens (Nat.lt_irrefl 0)
  | closing => exact absurd hopens (Nat.lt_irrefl 0)
  | down => exact absurd hopens (Nat.lt_irrefl 0)

/-- `connectDestroyed` is on its way to a connection that is up only. -/
theorem Wired.up_of_destroys (h : v.Wired) (hdestroys : 0 < v.destroysPending) : v.conn.isUp := by
  obtain ⟨stage, messages, hat⟩ := h.stage
  rw [hat.destroys] at hdestroys
  cases stage with
  | closing => exact hat.state
  | opening => exact absurd hdestroys (Nat.lt_irrefl 0)
  | up => exact absurd hdestroys (Nat.lt_irrefl 0)
  | down => exact absurd hdestroys (Nat.lt_irrefl 0)

theorem Wired.reading_of_connecting (h : v.Wired) (hk : v.conn.state_ = .kConnecting) :
    v.conn.channel_.reading = false := by
  obtain ⟨stage, messages, hat⟩ := h.stage
  have hallows := hat.state
  rw [hat.reading]
  cases stage with
  | up => exact absurd hk (isUp_ne hallows).1
  | opening => rfl
  | closing => rfl
  | down => rfl

/-! ## A life -/

/-- **What a connection carries through its life**, `entries` the calls of the loops it has had. -/
structure Lives (v : Session) (entries : List Entry) : Prop where
  connecting : v.conn.state_ = .kConnecting →
    entries = [] ∧ v.conn.channel_.writing = false ∧ ∀ f ∈ v.loop.waiting, f = .connectEstablished
  up : v.conn.isUp → ∃ cbs : List EventCallback, entries = .connectEstablished :: cbs.map .handleEvent
  down : v.conn.state_ = .kDisconnected → ∃ cbs : List EventCallback,
    entries = .connectEstablished :: cbs.map .handleEvent ++ [.connectDestroyed]
  /-- Its events are delivered while it is up. -/
  event : ∀ rest, v.phase = .event rest → v.conn.isUp
  handling : v.conn.channel_.eventHandling_ = true → ∃ rest, v.phase = .event rest
  /-- Until `connectDestroyed` has removed the channel, its functor is in the vector of the batch. -/
  destroying : v.conn.state_ = .kDisconnected → v.conn.channel_.active = true →
    v.user = some (.callback (.connection false)) ∧ v.phase = .functors ∧
      .connectDestroyed ∈ v.loop.ran
  stopped : v.conn.channel_.active = false → v.conn.state_ = .kDisconnected

theorem Opening.lives (h : v.Opening) : v.Lives [] := by
  obtain ⟨sockfd, writeComplete, hconn⟩ := h.conn
  refine ⟨fun _ => ⟨rfl, ?_, h.waiting⟩, ?_, ?_, fun rest hphase => absurd hphase (h.event rest), ?_,
    ?_, ?_⟩
  all_goals rw [hconn]
  · rfl
  · exact fun hup => hup.elim nofun nofun
  · rintro ⟨⟩
  · rintro ⟨⟩
  · rintro ⟨⟩
  · rintro ⟨⟩

/-- The thread moves. -/
theorem Lives.move (h : v.Lives entries) (hconn : v₁.conn = v.conn)
    (hwaiting : v.conn.state_ = .kConnecting → ∀ f ∈ v₁.loop.waiting, f ∈ v.loop.waiting)
    (hevent : ∀ rest, v₁.phase = .event rest → v.conn.isUp)
    (hhandling : v.conn.channel_.eventHandling_ = true → ∃ rest, v₁.phase = .event rest)
    (hdestroying : v.conn.state_ = .kDisconnected → v.conn.channel_.active = true →
      v₁.user = some (.callback (.connection false)) ∧ v₁.phase = .functors ∧
        .connectDestroyed ∈ v₁.loop.ran) : v₁.Lives entries where
  connecting hk := by
    rw [hconn] at hk ⊢
    obtain ⟨hnil, hwriting, hall⟩ := h.connecting hk
    exact ⟨hnil, hwriting, fun f hf => hall f (hwaiting hk f hf)⟩
  up hup := h.up (hconn ▸ hup)
  down hk := h.down (hconn ▸ hk)
  event rest hphase := hconn ▸ hevent rest hphase
  handling hh := hhandling (hconn ▸ hh)
  destroying hk ha := hdestroying (hconn ▸ hk) (hconn ▸ ha)
  stopped ha := hconn ▸ h.stopped (hconn ▸ ha)

/-- A member function that opens and closes nothing. -/
theorem Lives.plain (h : v.Lives entries)
    (hstate : c.state_ = v.conn.state_ ∨ v.conn.isUp ∧ c.isUp)
    (hactive : c.channel_.active = v.conn.channel_.active)
    (hhandling : c.channel_.eventHandling_ = v.conn.channel_.eventHandling_)
    (hconnecting : v.conn.state_ = .kConnecting →
      c.channel_.writing = v.conn.channel_.writing ∧ actions.flatMap (queuedBy v.owner) = [])
    (huser : v.user = some (.callback (.connection false)) → actions.findSome? entersUser = none) :
    (v.after c actions fs).Lives entries := by
  have hup : c.isUp ↔ v.conn.isUp := by
    rcases hstate with hsame | ⟨hup, hup'⟩
    · unfold isUp
      rw [hsame]
    · exact iff_of_true hup' hup
  have hsame : ∀ {k}, (k = .kConnecting ∨ k = .kDisconnected) → c.state_ = k → v.conn.state_ = k := by
    intro k hk hck
    rcases hstate with hsame | ⟨_, hup'⟩
    · exact hsame ▸ hck
    · rcases hk with rfl | rfl
      · exact absurd hck (isUp_ne hup').1
      · exact absurd hck (isUp_ne hup').2
  refine ⟨?_, fun h' => h.up (hup.mp h'), fun hk => h.down (hsame (.inr rfl) hk), ?_, ?_, ?_, ?_⟩
  · intro hk
    have hk' := hsame (.inl rfl) hk
    obtain ⟨hnil, hwriting, hall⟩ := h.connecting hk'
    obtain ⟨hwrite, hqueue⟩ := hconnecting hk'
    refine ⟨hnil, hwrite.trans hwriting, ?_⟩
    rw [after_waiting, hqueue, List.append_nil]
    exact hall
  · intro rest hphase
    exact hup.mpr (h.event rest hphase)
  · intro hh
    exact h.handling (hhandling ▸ hh)
  · intro hk ha
    obtain ⟨hdown, hphase, hran⟩ := h.destroying (hsame (.inr rfl) hk) (hactive ▸ ha)
    refine ⟨?_, hphase, hran⟩
    rw [after_user, huser hdown]
    exact hdown
  · intro ha
    have hk := h.stopped (hactive ▸ ha)
    rcases hstate with hsame | ⟨hup', _⟩
    · exact hsame.trans hk
    · exact absurd hk (isUp_ne hup').2

/-- `connectEstablished`, from `newConnection` or from the queue. -/
theorem Lives.established (h : v.Lives entries) (hk : v.conn.state_ = .kConnecting)
    (hphase : ∀ rest, v.phase ≠ .event rest)
    (hrun : v.conn.connectEstablished = .ok (c, actions) fs) :
    (v₁.after c actions fs).Lives (entries ++ [.connectEstablished]) := by
  obtain ⟨rfl, rfl, rfl⟩ := connectEstablished_spec hk hrun
  obtain ⟨rfl, -, -⟩ := h.connecting hk
  refine ⟨by simp, fun _ => ⟨[], rfl⟩, by simp, fun _ _ => .inl rfl, ?_, by simp, ?_⟩
  · intro hh
    obtain ⟨rest, hrest⟩ := h.handling hh
    exact absurd hrest (hphase rest)
  · intro ha
    exact absurd (hk.symm.trans (h.stopped ha)) (by simp)

/-- `connectDestroyed`, as a functor. -/
theorem Lives.destroyed (h : v.Lives entries) (hup : v.conn.isUp) (hphase : v.phase = .functors)
    (hran : .connectDestroyed ∈ v₁.loop.ran) (hphase₁ : v₁.phase = .functors)
    (hrun : v.conn.connectDestroyed = .ok (c, actions) fs) :
    (v₁.after c actions fs).Lives (entries ++ [.connectDestroyed]) := by
  obtain ⟨rfl, rfl, rfl⟩ := connectDestroyed_spec hup hrun
  obtain ⟨cbs, rfl⟩ := h.up hup
  refine ⟨(by simp), fun hup' => hup'.elim (by simp) (by simp), fun _ => ⟨cbs, rfl⟩, ?_, ?_, ?_, fun _ => rfl⟩
  · intro rest hrest
    exact absurd (hphase₁.symm.trans hrest) (by simp)
  · intro hh
    obtain ⟨rest, hrest⟩ := h.handling hh
    exact absurd (hphase.symm.trans hrest) (by simp)
  · intro _ _
    exact ⟨rfl, hphase₁, hran⟩

/-- Free code finds no connection in the middle of `connectDestroyed`. -/
theorem Lives.calm (h : v.Lives entries) {P : Prop}
    (hnot : v.user ≠ some (.callback (.connection false)) ∨ v.phase ≠ .functors)
    (hk : v.conn.state_ = .kDisconnected) (ha : v.conn.channel_.active = true) : P := by
  obtain ⟨huser, hphase, -⟩ := h.destroying hk ha
  rcases hnot with hnot | hnot
  · exact absurd huser hnot
  · exact absurd hphase hnot

theorem Lives.functor (h : v.Lives entries) (hw : v.Wired) {f : Functor} {loop : EventLoop Functor}
    {w : Write} (hphase : v.phase = .functors) (hfree : v.user = none)
    (hnext : v.loop.nextFunctor = some (f, loop)) (hfit : WriteFits w f)
    (hrun : f.run v.conn w = .ok (c, actions) fs) :
    (({ v with loop := loop } : Session).after c actions fs).Lives
      (entries ++ (functorEntry f).toList) := by
  have hwaiting := EventLoop.nextFunctor_waiting hnext
  have hnot : v.user ≠ some (.callback (.connection false)) := by
    rw [hfree]
    simp
  have hmoved : ({ v with loop := loop } : Session).Lives entries := by
    refine h.move rfl ?_ h.event h.handling (h.calm (.inl hnot))
    intro _ g hg
    rw [hwaiting]
    exact List.mem_cons_of_mem _ hg
  have hopened : f ≠ .connectEstablished → v.conn.state_ ≠ .kConnecting := by
    intro hf hk
    refine hf ((h.connecting hk).2.2 f ?_)
    rw [hwaiting]
    exact List.mem_cons_self
  have hfree' : ({ v with loop := loop } : Session).user = some (.callback (.connection false)) →
      actions.findSome? entersUser = none := fun huser => absurd huser hnot
  cases f with
  | connectEstablished =>
      have hopens : 0 < v.opensPending := by
        unfold opensPending
        rw [hwaiting, List.count_cons_self]
        omega
      refine h.established (hw.connecting_of_opens hopens) ?_ hrun
      intro rest hrest
      exact absurd (hphase.symm.trans hrest) (by simp)
  | connectDestroyed =>
      have hdestroys : 0 < v.destroysPending := by
        unfold destroysPending
        rw [hwaiting, List.count_cons_self]
        omega
      refine h.destroyed (hw.up_of_destroys hdestroys) hphase ?_ hphase hrun
      rw [EventLoop.ran_nextFunctor hnext]
      exact List.mem_append_right _ (List.mem_singleton_self _)
  | sendInLoop caller message =>
      obtain ⟨-, direct, rest, hsent⟩ := sendInLoop_spec hw.sound hfit hrun
      show Lives _ (entries ++ [])
      rw [List.append_nil]
      exact hmoved.plain (.inl hsent.state) hsent.active hsent.eventHandling
        (fun hk => absurd hk (hopened (by simp))) hfree'
  | shutdownInLoop | writeCompleteCallback | highWaterMarkCallback backlog =>
      -- these leave the connection as it is
      obtain ⟨⟨rfl, rfl⟩, rfl⟩ : (v.conn = c ∧ _ = actions) ∧ [] = fs := by
        simpa only [Functor.run, Outcome.pure_eq, Outcome.ok.injEq, Prod.mk.injEq] using hrun
      show Lives _ (entries ++ [])
      rw [List.append_nil]
      exact hmoved.plain (.inl rfl) rfl rfl (fun hk => absurd hk (hopened (by simp))) hfree'

/-- A connection that is up has had `connectEstablished`, and events since. -/
theorem Lives.handled (h : v.Lives entries) (hup : v.conn.isUp) (cb : EventCallback) :
    v.Lives (entries ++ [.handleEvent cb]) := by
  obtain ⟨cbs, rfl⟩ := h.up hup
  have hne := isUp_ne hup
  refine ⟨fun hk => absurd hk hne.1, fun _ => ⟨cbs ++ [cb], ?_⟩, fun hk => absurd hk hne.2, h.event,
    h.handling, fun hk => absurd hk hne.2, h.stopped⟩
  rw [List.map_append]
  rfl

theorem Lives.callback (h : v.Lives entries) (hw : v.Wired) {cb : EventCallback}
    {rest : List EventCallback} {r : Buffer.Readv} {w : Write}
    (hphase : v.phase = .event (cb :: rest)) (hrfit : r.Fits v.conn.inputBuffer_)
    (hwfit : w.Fits v.conn.outputBuffer_.readable.length)
    (hrun : v.conn.handleEvent cb r w = .ok (c, actions) fs) :
    (({ v with phase := .event rest } : Session).after c actions fs).Lives
      (entries ++ [.handleEvent cb]) := by
  have hup := h.event _ hphase
  have hnot : v.phase ≠ .functors := by
    rw [hphase]
    simp
  have hmoved : ({ v with phase := .event rest } : Session).Lives (entries ++ [.handleEvent cb]) :=
    (h.handled hup cb).move rfl (fun _ _ hf => hf) (fun _ _ => hup) (fun _ => ⟨rest, rfl⟩)
      (h.calm (.inr hnot))
  have hdown : v.user ≠ some (.callback (.connection false)) :=
    fun huser => (isUp_ne hup).2 (hw.down huser).1
  cases cb with
  | errorCallback =>
      obtain ⟨⟨rfl, rfl⟩, rfl⟩ : (v.conn = c ∧ _ = actions) ∧ [] = fs := by
        simpa only [handleEvent, Outcome.pure_eq, Outcome.ok.injEq, Prod.mk.injEq] using hrun
      exact hmoved.plain (.inl rfl) rfl rfl (fun hk => absurd hk (isUp_ne hup).1) fun huser =>
        absurd huser hdown
  | readCallback =>
      obtain ⟨-, hread⟩ := handleRead_spec hw.sound hup hrfit hrun
      exact hmoved.plain (.inl hread.state) hread.active hread.eventHandling
        (fun hk => absurd hk (isUp_ne hup).1) fun huser => absurd huser hdown
  | writeCallback =>
      obtain ⟨-, hwrote⟩ := handleWrite_spec hw.sound hwfit hrun
      exact hmoved.plain (.inl hwrote.state) hwrote.active hwrote.eventHandling
        (fun hk => absurd hk (isUp_ne hup).1) fun huser => absurd huser hdown

theorem Lives.send (h : v.Lives entries) (hw : v.Wired) {caller : Thread} {message : Message}
    {w : Write} (hfit : w.Fits message.bytes.length)
    (hrun : v.conn.send caller message w = .ok (c, actions) fs) :
    (v.after c actions fs).Lives entries := by
  have hdown : v.conn.state_ = .kConnected → v.user ≠ some (.callback (.connection false)) := by
    intro hk huser
    exact absurd (hk.symm.trans (hw.down huser).1) (by simp)
  rcases send_spec hrun with ⟨-, rfl, rfl, rfl⟩ | ⟨hk, -, sent, hsend, rfl⟩ | ⟨hk, -, rfl, rfl, rfl⟩
  · exact h.plain (.inl rfl) rfl rfl (fun _ => ⟨rfl, rfl⟩) fun _ => rfl
  · obtain ⟨-, direct, rest, hsent⟩ := sendInLoop_spec hw.sound hfit hsend
    exact h.plain (.inl hsent.state) hsent.active hsent.eventHandling
      (fun hk' => absurd (hk.symm.trans hk') (by simp)) fun huser => absurd huser (hdown hk)
  · exact h.plain (.inl rfl) rfl rfl (fun hk' => absurd (hk.symm.trans hk') (by simp)) fun huser =>
      absurd huser (hdown hk)

theorem Lives.shutdown (h : v.Lives entries) (hw : v.Wired) {caller : Thread}
    (hrun : v.conn.shutdown caller = .ok (c, actions) fs) : (v.after c actions fs).Lives entries := by
  obtain ⟨-, ⟨-, rfl, rfl⟩ | ⟨hk, rfl, rfl⟩⟩ := shutdown_spec hrun
  · exact h.plain (.inl rfl) rfl rfl (fun _ => ⟨rfl, rfl⟩) fun _ => rfl
  · refine h.plain (.inr ⟨.inl hk, .inr rfl⟩) rfl rfl (fun hk' => absurd (hk.symm.trans hk') (by simp)) ?_
    intro huser
    exact absurd (hk.symm.trans (hw.down huser).1) (by simp)

/-- Delivered events find a connection that is up. -/
theorem Lives.delivered (h : v.Lives entries) (hw : v.Wired) {revents : Revents}
    (hphase : v.phase = .between) (hdelivers : v.conn.channel_.Delivers revents)
    (hinterested : v.conn.channel_.isNoneEvent = false) : v.conn.isUp := by
  have hnot : v.phase ≠ .functors := by
    rw [hphase]
    simp
  cases hk : v.conn.state_ with
  | kConnecting =>
      have hnone : v.conn.channel_.isNoneEvent = true := by
        unfold Channel.isNoneEvent
        rw [hw.reading_of_connecting hk, (h.connecting hk).2.1]
        rfl
      exact absurd (hnone.symm.trans hinterested) (by simp)
  | kConnected => exact .inl hk
  | kDisconnecting => exact .inr hk
  | kDisconnected => exact h.calm (.inr hnot) hk hdelivers.1

theorem Lives.still (h : v₁.Lives entries) (hconn : v₁.conn = v.conn) :
    (v₁.after v.conn [] []).Lives entries := by
  rw [← hconn, after_nothing]
  exact h

/-- libev calls the channel. -/
theorem Lives.begun (h : v.Lives entries) (hup : v.conn.isUp) (cbs : List EventCallback) :
    (({ v with phase := .event cbs } : Session).after
      { v.conn with channel_ := v.conn.channel_.beginEvent } [] []).Lives entries where
  connecting hk := absurd hk (isUp_ne hup).1
  up _ := h.up hup
  down hk := absurd hk (isUp_ne hup).2
  event _ _ := hup
  handling _ := ⟨cbs, rfl⟩
  destroying hk := absurd hk (isUp_ne hup).2
  stopped ha := h.stopped ha

theorem Lives.ended (h : v.Lives entries) (hup : v.conn.isUp) :
    (({ v with phase := .between } : Session).after
      { v.conn with channel_ := v.conn.channel_.endEvent } [] []).Lives entries where
  connecting hk := absurd hk (isUp_ne hup).1
  up _ := h.up hup
  down hk := absurd hk (isUp_ne hup).2
  event _ := by simp
  handling := by rintro ⟨⟩
  destroying hk := absurd hk (isUp_ne hup).2
  stopped ha := h.stopped ha

/-- `connectDestroyed` removes the channel. -/
theorem Lives.removed (h : v.Lives entries) (hw : v.Wired)
    (hinside : v.user = some (.callback (.connection false)))
    (hrun : v.conn.removeChannel = .ok (c, actions) fs) :
    (({ v with user := none } : Session).after c actions fs).Lives entries := by
  obtain ⟨hk, hnone⟩ := hw.down hinside
  obtain ⟨rfl, rfl, rfl⟩ := removeChannel_spec hnone hrun
  refine ⟨fun hk' => absurd (hk.symm.trans hk') (by simp), fun hup => absurd hk (isUp_ne hup).2,
    fun _ => h.down hk, ?_, h.handling, fun _ => by rintro ⟨⟩, fun _ => hk⟩
  intro rest hphase
  exact absurd hk (isUp_ne (h.event rest hphase)).2

/-- **Every step that a connection sees is one of its life.** -/
theorem Lives.sees {entry : Option Entry} (h : v.Lives entries) (hw : v.Wired)
    (hsees : Sees v entry v') : v'.Lives (entries ++ entry.toList) := by
  -- an event without a call changes no entries
  have hnone : ∀ {v' : Session}, v'.Lives entries → v'.Lives (entries ++ (none : Option Entry).toList) := by
    intro v' h'
    rw [Option.toList_none, List.append_nil]
    exact h'
  cases hsees with
  | nothing => exact hnone h
  | step hbegins hinterested =>
      cases hbegins with
      | send _ hfit hrun => exact hnone (h.send hw hfit hrun)
      | shutdown _ hrun => exact hnone (h.shutdown hw hrun)
      | connectEstablished hphase hrun =>
          have hopens : 0 < v.opensPending := by
            unfold opensPending
            rw [if_pos hphase]
            omega
          refine h.established (hw.connecting_of_opens hopens) ?_ hrun
          intro rest hrest
          exact absurd (hphase.symm.trans hrest) (by simp)
      | doPendingFunctors hphase hfree =>
          have hnot : v.phase ≠ .functors := by
            rw [hphase]
            simp
          have hrest := hw.rest hnot
          refine hnone (Lives.still (h.move rfl ?_ (fun _ => by simp) ?_ (h.calm (.inr hnot))) rfl)
          · intro _ f hf
            rw [show _ = v.loop.waiting from EventLoop.waiting_swapFunctors hrest] at hf
            exact hf
          · intro hh
            obtain ⟨rest, hev⟩ := h.handling hh
            exact absurd (hphase.symm.trans hev) (by simp)
      | runFunctor hphase hfree hnext hfit hrun =>
          unfold entryOf
          rw [hnext]
          exact h.functor hw hphase hfree hnext hfit hrun
      | endFunctors hphase hfree hdone =>
          have hnot : v.user ≠ some (.callback (.connection false)) := by
            rw [hfree]
            simp
          refine hnone (Lives.still (h.move rfl ?_ (fun _ => by simp) ?_ (h.calm (.inl hnot))) rfl)
          · intro _ f hf
            rw [show _ = v.loop.waiting from EventLoop.waiting_endFunctors hdone] at hf
            exact hf
          · intro hh
            obtain ⟨rest, hev⟩ := h.handling hh
            exact absurd (hphase.symm.trans hev) (by simp)
      | handleEvent hphase hfree hdelivers =>
          exact hnone (h.begun (h.delivered hw hphase hdelivers (hinterested _ rfl)) _)
      | runCallback hphase hfree hrfit hwfit hrun =>
          unfold entryOf
          rw [hphase]
          exact h.callback hw hphase hrfit hwfit hrun
      | endEvent hphase hfree => exact hnone (h.ended (h.event _ hphase))
      | enterUser hphase hfree =>
          have hnot : v.user ≠ some (.callback (.connection false)) := by
            rw [hfree]
            simp
          exact hnone (Lives.still (h.move rfl (fun _ _ hf => hf) h.event h.handling
            (h.calm (.inl hnot))) rfl)
      | useInput _ _ _ => exact hnone (h.plain (.inl rfl) rfl rfl (fun _ => ⟨rfl, rfl⟩) fun _ => rfl)
      | swapInput _ _ => exact hnone (h.plain (.inl rfl) rfl rfl (fun _ => ⟨rfl, rfl⟩) fun _ => rfl)
      | setWriteCompleteCallback _ =>
          exact hnone (h.plain (.inl rfl) rfl rfl (fun _ => ⟨rfl, rfl⟩) fun _ => rfl)
      | setHighWaterMarkCallback _ =>
          exact hnone (h.plain (.inl rfl) rfl rfl (fun _ => ⟨rfl, rfl⟩) fun _ => rfl)
      | leaveDown hinside hrun => exact hnone (h.removed hw hinside hrun)
      | leaveUser hinside hnot =>
          have hcode : v.user ≠ some (.callback (.connection false)) := by
            rw [hinside]
            exact fun huser => hnot (Option.some.inj huser)
          exact hnone (Lives.still (h.move rfl (fun _ _ hf => hf) h.event h.handling
            (h.calm (.inl hcode))) rfl)
      | removeConnectionInLoop hwaits =>
          have hup : v.conn.isUp := hw.up_of_destroys (Nat.lt_of_lt_of_le hwaits (Nat.le_add_right ..))
          exact hnone (Lives.still (h.move rfl (fun hk => absurd hk (isUp_ne hup).1) h.event
            h.handling (fun hk => absurd hk (isUp_ne hup).2)) rfl)

end Session

namespace ServerRun

variable {s s' : ServerRun}

/-! ## Every connection of a server -/

/-- **The invariant**: everything is in its place, and every connection is `Wired` and alive. -/
structure Served (s : ServerRun) : Prop where
  placed : s.Placed
  callsMade : s.CallsMade
  balanced : s.Balanced
  conns : ∀ conn < s.accepted, (s.view conn).Wired ∧ ∃ entries, (s.view conn).Lives entries ∧
    s.callsOf conn = entries.map (⟨conn, (s.conns conn).loop_, ·⟩)

theorem new_served (name : String) (numThreads : Nat) (writeComplete : Bool) :
    (new name numThreads writeComplete).Served where
  placed := new_placed name numThreads writeComplete
  callsMade _ _ := rfl
  balanced := ⟨fun _ => nofun, fun _ => nofun⟩
  conns _ := by rintro ⟨⟩

theorem Served.step (h : s.Served) {e : Event} (hstep : s.step e = some s') : s'.Served := by
  have hbooks := step_books h.placed hstep
  refine ⟨h.placed.step hstep, h.callsMade.step h.placed hstep, h.balanced.books h.placed hbooks, ?_⟩
  -- a connection that was there sees a step of its own
  have hold : ∀ conn < s.accepted, (s'.view conn).Wired ∧ ∃ entries, (s'.view conn).Lives entries ∧
      s'.callsOf conn = entries.map (⟨conn, (s'.conns conn).loop_, ·⟩) := by
    intro conn hconn
    obtain ⟨hwired, entries, hlives, hcalls⟩ := h.conns conn hconn
    obtain ⟨entry, hsees, hnew⟩ := sees_step h.placed (fun j hj => (h.conns j hj).1) hstep hconn
    have hloop : (s'.conns conn).loop_ = (s.conns conn).loop_ :=
      congrArg Prod.snd (hbooks.identity hconn)
    refine ⟨hsees.wired hwired, entries ++ entry.toList, hlives.sees hwired hsees, ?_⟩
    rw [hnew, hcalls, hloop, List.map_append]
  intro conn hconn
  rcases hbooks.accepted with ⟨hat, sockfd, hrun⟩ | hsame
  · rw [newConnection_accepted hrun] at hconn
    rcases Nat.lt_succ_iff_lt_or_eq.mp hconn with hconn | rfl
    · exact hold conn hconn
    · have hnone := h.callsMade s.accepted (Nat.le_refl _)
      obtain ⟨v, entry, hopening, hsees, hcalls⟩ := made_sees h.placed hnone hat hrun
      refine ⟨hsees.wired hopening.wired, entry.toList, ?_, hcalls⟩
      exact hopening.lives.sees hopening.wired hsees
  · exact hold conn (hsame ▸ hconn)

theorem Served.closes_le_one (h : s.Served) {conn : Nat} (hconn : conn < s.accepted) :
    s.closes conn ≤ 1 := by
  obtain ⟨⟨stage, messages, hat⟩, -, -, -, -, -⟩ := (h.conns conn hconn).1
  have hcloses : s.closes conn = stage.closes := hat.closes
  rw [hcloses]
  cases stage <;> decide

/-! ## Who holds a connection -/

/-- Its channel is no longer registered, and it is outside of `handleEvent`. -/
def Finished (s : ServerRun) (conn : Nat) : Prop :=
  (s.conns conn).conn.channel_.active = false ∧ (s.conns conn).conn.channel_.eventHandling_ = false

theorem held_of_functor (h : s.Placed) {conn : Nat} (hconn : conn < s.accepted) {f : Functor}
    (hf : f ∈ (s.view conn).loop.alive) : s.Held conn := by
  have halive : (s.view conn).loop.alive =
      (s.loopOf conn).queue.alive.filterMap (ServerFunctor.ofConnection conn) := by
    unfold EventLoop.alive
    rw [List.filterMap_append]
    exact congrArg (_ ++ ·) (EventLoop.waiting_only _ _)
  rw [halive] at hf
  obtain ⟨g, hg, hof⟩ := List.mem_filterMap.mp hf
  right
  refine ⟨(s.conns conn).loop_, List.mem_range.mpr (Nat.lt_succ_of_le (h.isLoop conn hconn)), g, hg, ?_⟩
  by_contra hnot
  rw [(ServerFunctor.of_not_binds hnot).1] at hof
  cases hof

/-- **Until `connectDestroyed` has removed its channel, a connection is held.** -/
theorem Served.held (h : s.Served) (hentered : s.Entered) {conn : Nat} (hconn : conn < s.accepted) :
    s.Held conn ∨ (s.conns conn).conn.state_ = .kDisconnected ∧ s.Finished conn := by
  obtain ⟨hwired, entries, hlives, -⟩ := h.conns conn hconn
  obtain ⟨stage, messages, hat⟩ := hwired.stage
  by_cases hin : conn ∈ s.takenOut
  · have hcloses : stage.closes = s.removing conn + s.takenOut.count conn :=
      hat.closes.symm.trans (h.balanced.closes conn hconn)
    have htaken := List.count_pos_iff.mpr hin
    cases stage with
    | opening => exact absurd hcloses (by simp only [Session.Stage.closes]; omega)
    | up => exact absurd hcloses (by simp only [Session.Stage.closes]; omega)
    | closing =>
        -- taken out, and not down: `connectDestroyed` waits in the loop of the connection
        have hdestroys : s.removing conn + (s.view conn).loop.waiting.count .connectDestroyed = 1 :=
          hat.destroys
        simp only [Session.Stage.closes] at hcloses
        have hwaits : .connectDestroyed ∈ (s.view conn).loop.waiting := by
          rw [← List.count_pos_iff]
          omega
        exact .inl (held_of_functor h.placed hconn (List.mem_append_right _ hwaits))
    | down =>
        have hk : (s.conns conn).conn.state_ = .kDisconnected := hat.state
        cases hactive : (s.conns conn).conn.channel_.active with
        | true =>
            have hran := (hlives.destroying hk hactive).2.2
            exact .inl (held_of_functor h.placed hconn (List.mem_append_left _ hran))
        | false =>
            refine .inr ⟨hk, hactive, ?_⟩
            rw [← Bool.not_eq_true]
            intro hhandling
            obtain ⟨rest, hphase⟩ := hlives.handling hhandling
            exact (isUp_ne (hlives.event rest hphase)).2 hk
  · left
    left
    refine ⟨(s.server.nameOf conn, conn), ?_, rfl⟩
    rw [hentered.entries]
    exact List.mem_map_of_mem (mem_live.mpr ⟨hconn, hin⟩)

/-- The whole invariant, of a server that has not run out of names. -/
structure Kept (s : ServerRun) : Prop where
  served : s.Served
  entered : s.accepted < 2 ^ 31 → s.Entered
  destroyed : s.accepted < 2 ^ 31 → ∀ d ∈ s.destroyed, d.registered = false ∧ d.eventHandling_ = false

theorem Kept.step (h : s.Kept) {e : Event} (hstep : s.step e = some s') : s'.Kept := by
  have hbooks := step_books h.served.placed hstep
  have hserved := h.served.step hstep
  have hbefore : s'.accepted < 2 ^ 31 → s.accepted < 2 ^ 31 :=
    fun hfew => Nat.lt_of_le_of_lt hbooks.accepted_le hfew
  refine ⟨hserved, ?_, ?_⟩
  · intro hfew
    exact (h.entered (hbefore hfew)).books h.served.balanced hbooks hfew
      (fun conn hconn => hserved.closes_le_one hconn) fun conn hconn => h.served.closes_le_one hconn
  · intro hfew d hd
    rcases hbooks.destroyed with hsame | ⟨conn, hconn, hunheld, rfl⟩
    · rw [hsame] at hd
      exact h.destroyed (hbefore hfew) d hd
    · rcases List.mem_append.mp hd with hd | hd
      · exact h.destroyed hfew d hd
      · rw [List.mem_singleton.mp hd]
        exact ((h.served.held (h.entered hfew) hconn).resolve_left hunheld).2

theorem reachable_kept (h : serverMachine.Reachable s) : s.Kept := by
  refine h.invariant ?_ ?_
  · rintro _ ⟨name, numThreads, writeComplete, rfl⟩
    exact ⟨new_served name numThreads writeComplete, fun _ => new_entered name numThreads writeComplete,
      fun _ _ => by rintro ⟨⟩⟩
  · intro s e s' _ hkept _ hstep
    exact hkept.step hstep

/-- The order of the calls of the loops to one connection. -/
def InOrder (entries : List Entry) : Prop :=
  entries = [] ∨ ∃ cbs : List EventCallback,
    entries = .connectEstablished :: cbs.map .handleEvent ∨
      entries = .connectEstablished :: cbs.map .handleEvent ++ [.connectDestroyed]

theorem inOrder_of_lives {v : Session} {entries : List Entry} (h : v.Lives entries) :
    InOrder entries := by
  cases hk : v.conn.state_ with
  | kConnecting => exact .inl (h.connecting hk).1
  | kConnected =>
      obtain ⟨cbs, hcbs⟩ := h.up (.inl hk)
      exact .inr ⟨cbs, .inl hcbs⟩
  | kDisconnecting =>
      obtain ⟨cbs, hcbs⟩ := h.up (.inr hk)
      exact .inr ⟨cbs, .inl hcbs⟩
  | kDisconnected =>
      obtain ⟨cbs, hcbs⟩ := h.down hk
      exact .inr ⟨cbs, .inr hcbs⟩

/-- **The lifecycle of the connections of a server.** In every state that any interleaving of its loops
    and its users reaches, as long as fewer than `2 ^ 31` connections were accepted: the loops call each
    connection on its own loop, first `connectEstablished`, then its events, last `connectDestroyed`,
    and no assert of a connection fails; `connections_` holds exactly the connections not taken out,
    under distinct names, and no erase finds anything but one entry; a connection is held until
    `connectDestroyed` has removed its channel, and none is destroyed that is registered or inside
    `handleEvent`. -/
theorem server_lifecycle (h : serverMachine.Reachable s) (hfew : s.accepted < 2 ^ 31) :
    (∀ conn < s.accepted,
      (∀ call ∈ s.callsOf conn, call.thread = (s.conns conn).loop_) ∧
        InOrder ((s.callsOf conn).map ServerCall.entry) ∧ (s.conns conn).failed = [] ∧
        (s.Held conn ∨
          .connectDestroyed ∈ (s.callsOf conn).map ServerCall.entry ∧ s.Finished conn)) ∧
      s.server.connections_ =
        ((List.range s.accepted).filter (· ∉ s.takenOut)).map
          (fun conn => ((s.conns conn).name_, conn)) ∧
      (s.server.connections_.map Prod.fst).Nodup ∧ s.failed = [] ∧
      ∀ d ∈ s.destroyed, d.registered = false ∧ d.eventHandling_ = false := by
  have hkept := reachable_kept h
  have hentered := hkept.entered hfew
  refine ⟨?_, ?_, ?_, hentered.failed, hkept.destroyed hfew⟩
  · intro conn hconn
    obtain ⟨hwired, entries, hlives, hcalls⟩ := hkept.served.conns conn hconn
    have hentries : (s.callsOf conn).map ServerCall.entry = entries := by
      rw [hcalls, List.map_map]
      exact List.map_id entries
    refine ⟨?_, ?_, hwired.failed, ?_⟩
    · intro call hcall
      rw [hcalls] at hcall
      obtain ⟨entry, -, rfl⟩ := List.mem_map.mp hcall
      rfl
    · rw [hentries]
      exact inOrder_of_lives hlives
    · rcases hkept.served.held hentered hconn with hheld | ⟨hk, hfinished⟩
      · exact .inl hheld
      · obtain ⟨cbs, hcbs⟩ := hlives.down hk
        rw [hentries, hcbs]
        exact .inr ⟨List.mem_append_right _ (List.mem_singleton_self _), hfinished⟩
  · rw [hentered.entries]
    apply List.map_congr_left
    intro conn hconn
    rw [hentered.name conn (mem_live.mp hconn).1]
  · rw [hentered.entries, List.map_map]
    refine List.Nodup.map_on ?_ live_nodup
    intro i hi j hj heq
    have hi := (mem_live.mp hi).1
    have hj := (mem_live.mp hj).1
    exact TcpServer.nameOf_inj (by omega) (by omega) heq

/-- A connection to the only I/O loop; the peer closes it; it is removed and destroyed. -/
def openThenClosed : List Event :=
  [.newConnection false 9, .doPendingFunctors 1, .runFunctor 1 (.wrote 0), .leaveUser 1, .endFunctors 1,
   .handleEvent 0 ⟨false, true, false⟩, .runCallback 1 (.data []) (.wrote 0), .endEvent 1,
   .doPendingFunctors 0, .runFunctor 0 (.wrote 0), .endFunctors 0,
   .doPendingFunctors 1, .runFunctor 1 (.wrote 0), .leaveUser 1, .endFunctors 1, .destroy 0]

theorem server_lifecycle_openThenClosed :
    ∃ s, serverMachine.Reachable s ∧ s.accepted = 1 ∧ s.takenOut = [0] ∧
      s.destroyed = [⟨0, false, false⟩] ∧
      (s.callsOf 0).map ServerCall.entry =
        [.connectEstablished, .handleEvent .readCallback, .connectDestroyed] ∧ s.failed = [] := by
  have hrun : (serverMachine.run (new "Echo" 1 false) openThenClosed).map
      (fun s => (s.accepted, s.takenOut, s.destroyed, (s.callsOf 0).map ServerCall.entry)) =
        some (1, [0], [⟨0, false, false⟩],
          [.connectEstablished, .handleEvent .readCallback, .connectDestroyed]) := by decide +kernel
  obtain ⟨s, hs, hvalue⟩ := Option.map_eq_some_iff.mp hrun
  simp only [Prod.mk.injEq] at hvalue
  obtain ⟨haccepted, htaken, hdestroyed, hcalls⟩ := hvalue
  have hreach := Machine.run_reachable (M := serverMachine) ⟨"Echo", 1, false, rfl⟩ hs
  have hfew : s.accepted < 2 ^ 31 := by
    rw [haccepted]
    decide
  exact ⟨s, hreach, haccepted, htaken, hdestroyed, hcalls, (server_lifecycle hreach hfew).2.2.2.1⟩

end ServerRun

end Simplev
