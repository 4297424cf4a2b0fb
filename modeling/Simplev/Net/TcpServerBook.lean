import Simplev.Net.TcpServerViews

/-!
# `Net.TcpServerBook` — the book that a server keeps of its connections

The book is `connections_`, the counter of names, and the removals on their way. `Books` is what a step
does to it: most steps leave it as it is (`SameBook`), a member function of a connection may close it, a
removal takes it out, and `newConnection` enters a new one. Each invariant of the book has these four cases.

- **`Balanced`.** The closes of a connection are the removals on their way and those done.
- **`Entered`.** `connections_` lists, in order, the connections that are not taken out, under their names.
-/

namespace Simplev

open Foundation TcpConnection

namespace ServerRun

variable {s s₁ s' : ServerRun}

/-! ## What a step does to the book -/

/-- The threads moved, and the book is as it was. -/
structure SameBook (s s₁ : ServerRun) : Prop where
  server : s₁.server = s.server
  conns : s₁.conns = s.conns
  accepted : s₁.accepted = s.accepted
  failed : s₁.failed = s.failed
  takenOut : s₁.takenOut = s.takenOut
  removing : s₁.removing = s.removing
  destroyed : s₁.destroyed = s.destroyed

inductive Books (s : ServerRun) : ServerRun → Prop
  | same {next : ServerRun} (same : s.SameBook next) : Books s next
  | finish {now : ServerRun} {thread conn c actions fs} (same : s.SameBook now) (lt : conn < s.accepted) :
      Books s (now.finish thread conn c actions fs)
  | removal {conn queue} (lt : conn < s.accepted)
      (next : (s.loops 0).queue.nextFunctor = some (.removeConnectionInLoop conn, queue)) :
      Books s ((s.setQueue 0 queue).removeConnectionInLoop conn)
  | newConnection {sockfd} {next : ServerRun} (free : s.At 0 .between)
      (run : s.newConnection sockfd = some next) : Books s next
  | destroy {conn} (lt : conn < s.accepted) (unheld : ¬ s.Held conn) : Books s (s.destroy conn)

theorem SameBook.refl (s : ServerRun) : s.SameBook s := ⟨rfl, rfl, rfl, rfl, rfl, rfl, rfl⟩

/-- A loop moves, and no removal comes or goes. -/
theorem sameBook_modifyLoop {l : Nat} {f : IoLoop → IoLoop}
    (h : ∀ j, (f (s.loops l)).queue.waitingOf (ServerFunctor.ofRemoval j) =
      (s.loops l).queue.waitingOf (ServerFunctor.ofRemoval j)) : s.SameBook (s.modifyLoop l f) :=
  ⟨rfl, rfl, rfl, rfl, rfl, funext fun j => removing_modifyLoop (h j), rfl⟩

theorem SameBook.record (h : s.SameBook s₁) (thread conn : Nat) (entry : Entry) :
    s.SameBook (s₁.record thread conn entry) :=
  ⟨h.server, h.conns, h.accepted, h.failed, h.takenOut, h.removing, h.destroyed⟩

theorem SameBook.recordFunctor (h : s.SameBook s₁) (thread conn : Nat) (f : Functor) :
    s.SameBook (s₁.recordFunctor thread conn f) := by
  unfold ServerRun.recordFunctor
  split
  · exact h.record ..
  · exact h.record ..
  · exact h

/-- A functor that is no removal leaves the queue. -/
theorem sameBook_setQueue {l : Nat} {g : ServerFunctor} {queue : EventLoop ServerFunctor}
    (hnext : (s.loops l).queue.nextFunctor = some (g, queue)) (hg : ∀ j, g.ofRemoval j = none) :
    s.SameBook (s.setQueue l queue) := by
  apply sameBook_modifyLoop
  intro j
  rw [EventLoop.waitingOf_nextFunctor _ hnext, hg j]
  rfl

theorem sameBook_setBatch {l : Nat} {phase : LoopPhase} {queue : EventLoop ServerFunctor}
    (hwaiting : queue.waiting = (s.loops l).queue.waiting) : s.SameBook (s.setBatch l phase queue) := by
  apply sameBook_modifyLoop
  intro j
  unfold EventLoop.waitingOf
  rw [hwaiting]

theorem step_books (h : s.Placed) {e : Event} (hstep : s.step e = some s') : s.Books s' := by
  have hmoved : ∀ {l f}, (∀ loop : IoLoop, (f loop).queue = loop.queue) →
      s.SameBook (s.modifyLoop l f) := by
    intro l f hf
    apply sameBook_modifyLoop
    intro j
    rw [hf]
  cases step_inv hstep with
  | refuse => exact .same (.refl s)
  | newConnection hat hrun => exact .newConnection hat hrun
  | @doPendingFunctors l _ hat =>
      have hrest := h.rest l (by rw [hat.1]; simp)
      exact .same (sameBook_setBatch (EventLoop.waiting_swapFunctors hrest))
  | runFunctor _ hnext _ _ =>
      obtain ⟨hlt, -⟩ := h.functors _ _ (waiting_next hnext).1
      exact .finish ((sameBook_setQueue hnext fun _ => rfl).recordFunctor ..) hlt
  | @runRemoval l w conn queue _ hnext =>
      have hbelongs : s.Belongs l (.removeConnectionInLoop conn) :=
        h.functors _ _ (waiting_next hnext).1
      obtain ⟨hlt, rfl, -⟩ := hbelongs
      exact .removal hlt hnext
  | runUser _ hnext => exact .same (sameBook_setQueue hnext fun _ => rfl)
  | endFunctors _ hdone => exact .same (sameBook_setBatch (EventLoop.waiting_endFunctors hdone))
  | handleEvent hlt _ _ _ => exact .finish (hmoved fun _ => rfl) hlt
  | @runCallback l _ _ conn _ rest _ _ _ hat _ _ _ =>
      have hsame : s.SameBook (s.setPhase l (.event conn rest)) := hmoved fun _ => rfl
      exact .finish (hsame.record ..) (h.event _ _ _ hat.1).1
  | endEvent hat => exact .finish (hmoved fun _ => rfl) (h.event _ _ _ hat.1).1
  | enterUser _ _ => exact .same (hmoved fun _ => rfl)
  | leaveDown hinside _ => exact .finish (hmoved fun _ => rfl) (h.user _ _ _ hinside).1
  | leaveUser _ _ => exact .same (hmoved fun _ => rfl)
  | send hmay _ _ => exact .finish (.refl s) hmay.1
  | shutdown hmay _ => exact .finish (.refl s) hmay.1
  | useInput hin _ _ => exact .finish (.refl s) (local_of_inMessageCallback h hin).1
  | swapInput hin _ => exact .finish (.refl s) (local_of_inMessageCallback h hin).1
  | setWriteCompleteCallback _ hmay => exact .finish (.refl s) hmay.1
  | setHighWaterMarkCallback _ hmay => exact .finish (.refl s) hmay.1
  | destroy hlt hunheld => exact .destroy hlt hunheld

/-! ## What no step changes -/

theorem setConn_name (conn j : Nat) (c : TcpConnection) (actions : List Action)
    (fs : List String) : ((s.setConn conn c actions fs).conns j).name_ = (s.conns j).name_ := by
  by_cases hj : j = conn
  · rw [hj, setConn_self]
  · rw [setConn_of_ne hj]

/-- The name and the loop of a connection. -/
def identity (s : ServerRun) (conn : Nat) : String × Nat := ((s.conns conn).name_, (s.conns conn).loop_)

@[simp] theorem finish_identity (thread conn j : Nat) (c : TcpConnection) (actions : List Action)
    (fs : List String) : (s.finish thread conn c actions fs).identity j = s.identity j := by
  unfold identity
  rw [finish_conns, setConn_name, setConn_loop]

theorem SameBook.identity (h : s.SameBook s₁) (j : Nat) : s₁.identity j = s.identity j := by
  unfold ServerRun.identity
  rw [h.conns]

theorem makeConnection_identity {j : Nat} (hj : j < s.accepted) (sockfd : Nat) :
    (s.makeConnection sockfd).identity j = s.identity j := by
  unfold identity
  rw [makeConnection_of_lt hj]

theorem Books.identity (h : s.Books s') {j : Nat} (hj : j < s.accepted) :
    s'.identity j = s.identity j := by
  cases h with
  | same hsame => exact hsame.identity j
  | finish hsame _ => exact (finish_identity ..).trans (hsame.identity j)
  | removal _ _ => rfl
  | destroy _ _ => rfl
  | newConnection _ hrun =>
      rcases newConnection_inv hrun with ⟨-, c, actions, fs, -, rfl⟩ | ⟨-, rfl⟩
      · exact (finish_identity ..).trans (makeConnection_identity hj _)
      · exact makeConnection_identity hj _

theorem newConnection_accepted {sockfd : Nat} (hrun : s.newConnection sockfd = some s') :
    s'.accepted = s.accepted + 1 := by
  rcases newConnection_inv hrun with ⟨-, c, actions, fs, -, rfl⟩ | ⟨-, rfl⟩
  · exact finish_accepted ..
  · rfl

/-- A step makes one connection, or none. -/
theorem Books.accepted (h : s.Books s') :
    (s.At 0 .between ∧ ∃ sockfd, s.newConnection sockfd = some s') ∨ s'.accepted = s.accepted := by
  cases h with
  | same hsame => exact .inr hsame.accepted
  | finish hsame _ => exact .inr ((finish_accepted ..).trans hsame.accepted)
  | removal _ _ => exact .inr rfl
  | newConnection hat hrun => exact .inl ⟨hat, _, hrun⟩
  | destroy _ _ => exact .inr rfl

theorem Books.accepted_le (h : s.Books s') : s.accepted ≤ s'.accepted := by
  rcases h.accepted with ⟨-, sockfd, hrun⟩ | hsame
  · rw [newConnection_accepted hrun]
    exact Nat.le_succ _
  · exact Nat.le_of_eq hsame.symm

theorem acts_destroyed (thread conn : Nat) (actions : List Action) :
    (s.acts thread conn actions).destroyed = s.destroyed := by
  induction actions generalizing s with
  | nil => rfl
  | cons a actions ih =>
      have hact : (s.act thread conn a).destroyed = s.destroyed := by
        cases a with
        | closeCallback =>
            show (s.removeConnection thread conn).destroyed = s.destroyed
            unfold removeConnection
            split <;> rfl
        | _ => rfl
      exact ih.trans hact

theorem finish_destroyed (thread conn : Nat) (c : TcpConnection) (actions : List Action)
    (fs : List String) : (s.finish thread conn c actions fs).destroyed = s.destroyed :=
  acts_destroyed ..

/-- A connection is destroyed when nothing holds it, and at no other step. -/
theorem Books.destroyed (h : s.Books s') : s'.destroyed = s.destroyed ∨
    ∃ conn < s.accepted, ¬ s.Held conn ∧ s' = s.destroy conn := by
  cases h with
  | same hsame => exact .inl hsame.destroyed
  | finish hsame _ => exact .inl ((finish_destroyed ..).trans hsame.destroyed)
  | removal _ _ => exact .inl rfl
  | newConnection _ hrun =>
      rcases newConnection_inv hrun with ⟨-, c, actions, fs, -, rfl⟩ | ⟨-, rfl⟩
      · exact .inl (finish_destroyed ..)
      · exact .inl rfl
  | @destroy conn hlt hunheld => exact .inr ⟨conn, hlt, hunheld, rfl⟩

/-! ## Closes and removals -/

/-- The removals of a connection, on their way or done. -/
def closing (s : ServerRun) (conn : Nat) : Nat := s.removing conn + s.takenOut.count conn

theorem closing_queueInLoop {l j : Nat} {g : ServerFunctor} (hg : g.ofRemoval j = none) :
    (s.queueInLoop l g).closing j = s.closing j := by
  unfold closing
  rw [removing_queueInLoop, hg]
  simp only [Option.toList_none, List.length_nil, ite_self, Nat.add_zero]
  rfl

theorem closing_removeConnectionInLoop (conn j : Nat) :
    (s.removeConnectionInLoop conn).closing j = s.closing j + if j = conn then 1 else 0 := by
  have hqueue : (s.removeConnectionInLoop conn).closing j = (s.takeOut conn).closing j :=
    closing_queueInLoop rfl
  have hcount : (s.takenOut ++ [conn]).count j =
      s.takenOut.count j + if j = conn then 1 else 0 := by
    rw [List.count_append]
    by_cases hj : j = conn
    · rw [if_pos hj, hj, List.count_singleton_self]
    · rw [if_neg hj, List.count_eq_zero.mpr (fun hmem => hj (List.mem_singleton.mp hmem))]
  rw [hqueue]
  show s.removing j + (s.takenOut ++ [conn]).count j = _
  rw [hcount, ← Nat.add_assoc]
  rfl

/-- Whichever thread it is called on, `closeCallback_` adds one removal. -/
theorem closing_removeConnection (thread conn j : Nat) :
    (s.removeConnection thread conn).closing j = s.closing j + if j = conn then 1 else 0 := by
  unfold removeConnection
  split
  · exact closing_removeConnectionInLoop conn j
  · unfold closing
    rw [removing_queueInLoop, if_pos rfl]
    have hlength : ((ServerFunctor.removeConnectionInLoop conn).ofRemoval j).toList.length =
        if j = conn then 1 else 0 := by
      show (if conn = j then some () else none).toList.length = _
      by_cases hj : conn = j
      · rw [if_pos hj, if_pos hj.symm]
        rfl
      · rw [if_neg hj, if_neg (Ne.symm hj)]
        rfl
    rw [hlength]
    show s.removing j + _ + s.takenOut.count j = _
    omega

theorem closing_acts (thread conn j : Nat) (actions : List Action) :
    (s.acts thread conn actions).closing j =
      s.closing j + if j = conn then actions.count .closeCallback else 0 := by
  induction actions generalizing s with
  | nil =>
      rw [List.count_nil, ite_self]
      rfl
  | cons a actions ih =>
      have hact : (s.act thread conn a).closing j =
          s.closing j + if j = conn then [a].count .closeCallback else 0 := by
        by_cases ha : a = .closeCallback
        · rw [ha]
          exact closing_removeConnection thread conn j
        · have hzero : [a].count Action.closeCallback = 0 :=
            List.count_eq_zero.mpr fun hmem => ha (List.mem_singleton.mp hmem).symm
          rw [hzero, ite_self]
          cases a with
          | queueInLoop f => exact closing_queueInLoop rfl
          | closeCallback => exact absurd rfl ha
          | _ => rfl
      have hcons : (a :: actions).count Action.closeCallback =
          [a].count .closeCallback + actions.count .closeCallback := by
        rw [← List.singleton_append, List.count_append]
      have hrun : (s.acts thread conn (a :: actions)).closing j = _ := ih (s := s.act thread conn a)
      rw [hrun, hact, hcons]
      split <;> omega

theorem closing_enter (thread : Nat) (code : Option ServerCode) (j : Nat) :
    (s.enter thread code).closing j = s.closing j := by
  unfold closing enter
  rw [removing_modifyLoop rfl]
  rfl

theorem closing_finish (thread conn j : Nat) (c : TcpConnection) (actions : List Action)
    (fs : List String) : (s.finish thread conn c actions fs).closing j =
      s.closing j + if j = conn then actions.count .closeCallback else 0 := by
  unfold finish
  rw [closing_enter, closing_acts]
  rfl

theorem SameBook.closing (h : s.SameBook s₁) (j : Nat) : s₁.closing j = s.closing j := by
  unfold ServerRun.closing
  rw [h.removing, h.takenOut]

/-- The calls of `closeCallback_` that a connection made. -/
def closes (s : ServerRun) (conn : Nat) : Nat := (s.conns conn).trace.count .closeCallback

theorem closes_finish (thread conn j : Nat) (c : TcpConnection) (actions : List Action)
    (fs : List String) : (s.finish thread conn c actions fs).closes j =
      s.closes j + if j = conn then actions.count .closeCallback else 0 := by
  unfold closes
  rw [finish_conns]
  by_cases hj : j = conn
  · rw [hj, setConn_self, if_pos rfl, List.count_append]
  · rw [setConn_of_ne hj, if_neg hj]
    rfl

/-- **The closes of every connection are the removals on their way and those done.** -/
structure Balanced (s : ServerRun) : Prop where
  closes : ∀ conn < s.accepted, s.closes conn = s.closing conn
  taken : ∀ conn ∈ s.takenOut, conn < s.accepted

theorem SameBook.balanced (h : s.SameBook s₁) (hs : s.Balanced) : s₁.Balanced where
  closes conn hconn := by
    unfold ServerRun.closes
    rw [h.conns, h.closing]
    exact hs.closes conn (h.accepted ▸ hconn)
  taken conn hconn := by
    rw [h.accepted]
    exact hs.taken conn (h.takenOut ▸ hconn)

theorem mem_takenOut_acts {thread conn x : Nat} {actions : List Action}
    (hx : x ∈ (s.acts thread conn actions).takenOut) : x ∈ s.takenOut ∨ x = conn := by
  induction actions generalizing s with
  | nil => exact .inl hx
  | cons a actions ih =>
      have hone : ∀ x ∈ (s.act thread conn a).takenOut, x ∈ s.takenOut ∨ x = conn := by
        intro x hx
        cases a with
        | closeCallback =>
            have hremove : x ∈ (s.removeConnection thread conn).takenOut := hx
            unfold removeConnection at hremove
            split at hremove
            · rcases List.mem_append.mp hremove with hold | hnew
              · exact .inl hold
              · exact .inr (List.mem_singleton.mp hnew)
            · exact .inl hremove
        | _ => exact .inl hx
      rcases ih (s := s.act thread conn a) hx with hx | hx
      · exact hone x hx
      · exact .inr hx

theorem Balanced.finish (h : s.Balanced) {thread conn : Nat} {c : TcpConnection}
    {actions : List Action} {fs : List String} (hlt : conn < s.accepted) :
    (s.finish thread conn c actions fs).Balanced where
  closes j hj := by
    rw [finish_accepted] at hj
    rw [closes_finish, closing_finish, h.closes j hj]
  taken j hj := by
    rw [finish_accepted]
    rcases mem_takenOut_acts hj with hj | rfl
    · exact h.taken j hj
    · exact hlt

/-- A removal that was on its way is done. -/
theorem Balanced.removal (h : s.Balanced) {conn : Nat} {queue : EventLoop ServerFunctor}
    (hlt : conn < s.accepted)
    (hnext : (s.loops 0).queue.nextFunctor = some (.removeConnectionInLoop conn, queue)) :
    ((s.setQueue 0 queue).removeConnectionInLoop conn).Balanced where
  closes j hj := by
    have hwaiting := EventLoop.waitingOf_nextFunctor (ServerFunctor.ofRemoval j) hnext
    -- the count goes from the removals that wait to those made
    have hremoving : s.removing j = (s.setQueue 0 queue).removing j + if j = conn then 1 else 0 := by
      unfold removing
      rw [hwaiting, setQueue, modifyLoop_self, List.length_append, Nat.add_comm]
      show _ + (if conn = j then some () else none).toList.length = _
      by_cases hj : conn = j
      · rw [if_pos hj, if_pos hj.symm]
        rfl
      · rw [if_neg hj, if_neg (Ne.symm hj)]
        rfl
    have hold : s.closes j = s.removing j + s.takenOut.count j := h.closes j hj
    rw [closing_removeConnectionInLoop]
    show s.closes j = (s.setQueue 0 queue).removing j + s.takenOut.count j + _
    omega
  taken j hj := by
    rcases List.mem_append.mp hj with hj | hj
    · exact h.taken j hj
    · rw [List.mem_singleton.mp hj]
      exact hlt

theorem Balanced.makeConnection (h : s.Balanced) (hplaced : s.Placed) (sockfd : Nat) :
    (s.makeConnection sockfd).Balanced where
  closes j hj := by
    rcases Nat.lt_succ_iff_lt_or_eq.mp hj with hj | rfl
    · unfold ServerRun.closes
      rw [makeConnection_of_lt hj]
      exact h.closes j hj
    · have hremoving : s.removing s.accepted = 0 :=
        congrArg List.length (hplaced.unmade 0 (Nat.le_refl _)).2.1
      have hcount : s.takenOut.count s.accepted = 0 :=
        List.count_eq_zero.mpr fun hmem => Nat.lt_irrefl _ (h.taken _ hmem)
      unfold ServerRun.closes
      rw [makeConnection_self]
      show 0 = s.removing s.accepted + s.takenOut.count s.accepted
      rw [hremoving, hcount]
  taken j hj := Nat.lt_succ_of_lt (h.taken j hj)

theorem Balanced.books (h : s.Balanced) (hplaced : s.Placed) (hbooks : s.Books s') : s'.Balanced := by
  cases hbooks with
  | same hsame => exact hsame.balanced h
  | finish hsame hlt => exact (hsame.balanced h).finish (hsame.accepted ▸ hlt)
  | removal hlt hnext => exact h.removal hlt hnext
  | destroy _ _ => exact ⟨h.closes, h.taken⟩
  | @newConnection sockfd _ _ hrun =>
      have hmade := h.makeConnection hplaced sockfd
      rcases newConnection_inv hrun with ⟨-, c, actions, fs, -, rfl⟩ | ⟨-, rfl⟩
      · have hrecorded : ((s.makeConnection sockfd).record 0 s.accepted .connectEstablished).Balanced :=
          ⟨hmade.closes, hmade.taken⟩
        exact hrecorded.finish (Nat.lt_succ_self _)
      · refine ⟨?_, hmade.taken⟩
        intro j hj
        rw [closing_queueInLoop rfl]
        exact hmade.closes j hj

/-! ## The entries of `connections_` -/

end ServerRun

/-- The name of a connection, by its number. -/
def TcpServer.nameOf (server : TcpServer) (conn : Nat) : String :=
  server.name_ ++ "#" ++ toString (((conn : Int) + 1).bmod (2 ^ 32))

/-- No two of the first `2 ^ 31 - 1` names are equal. -/
theorem TcpServer.nameOf_inj {server : TcpServer} {i j : Nat} (hi : i + 1 < 2 ^ 31)
    (hj : j + 1 < 2 ^ 31) (h : server.nameOf i = server.nameOf j) : i = j := by
  have hid : ∀ {n : Nat}, n + 1 < 2 ^ 31 → ((n : Int) + 1).bmod (2 ^ 32) = ((n + 1 : Nat) : Int) := by
    intro n hn
    rw [Int.bmod_eq_of_le (by omega) (by omega)]
    rfl
  have hrepr : (i + 1).repr = (j + 1).repr := by
    unfold nameOf at h
    rw [String.append_right_inj, hid hi, hid hj] at h
    exact h
  have hdigits := congrArg String.toList hrepr
  rw [Nat.toList_repr, Nat.toList_repr] at hdigits
  have hvalue := congrArg (Nat.ofDigitChars 10 · 0) hdigits
  simp only [Nat.ofDigitChars_ten_toDigits] at hvalue
  exact Nat.succ.inj hvalue

namespace ServerRun

variable {s s₁ s' : ServerRun}

/-- The connections that are not taken out, in the order of their making. -/
def live (s : ServerRun) : List Nat := (List.range s.accepted).filter (· ∉ s.takenOut)

theorem mem_live {conn : Nat} : conn ∈ s.live ↔ conn < s.accepted ∧ conn ∉ s.takenOut := by
  unfold live
  rw [List.mem_filter, List.mem_range, decide_eq_true_iff]

theorem live_nodup : s.live.Nodup := List.nodup_range.filter _

/-- **The book is kept**: names by number, and an entry for every connection that is not taken out. -/
structure Entered (s : ServerRun) : Prop where
  id : s.server.nextConnId_ = ((s.accepted : Int) + 1).bmod (2 ^ 32)
  name : ∀ conn < s.accepted, (s.conns conn).name_ = s.server.nameOf conn
  entries : s.server.connections_ = s.live.map fun conn => (s.server.nameOf conn, conn)
  failed : s.failed = []

theorem new_entered (name : String) (numThreads : Nat) (writeComplete : Bool) :
    (new name numThreads writeComplete).Entered where
  id := by
    show (1 : Int) = (0 + 1 : Int).bmod (2 ^ 32)
    rw [Int.bmod_eq_of_le (by decide) (by decide)]
    rfl
  name _ := by rintro ⟨⟩
  entries := rfl
  failed := rfl

theorem SameBook.entered (h : s.SameBook s₁) (hs : s.Entered) : s₁.Entered where
  id := by
    rw [h.server, h.accepted]
    exact hs.id
  name conn hconn := by
    rw [h.server, h.conns]
    exact hs.name conn (h.accepted ▸ hconn)
  entries := by
    unfold live
    rw [h.server, h.accepted, h.takenOut]
    exact hs.entries
  failed := h.failed.trans hs.failed

theorem Entered.setConn (h : s.Entered) (conn : Nat) (c : TcpConnection) (actions : List Action)
    (fs : List String) : (s.setConn conn c actions fs).Entered where
  id := h.id
  name j hj := (setConn_name ..).trans (h.name j hj)
  entries := h.entries
  failed := h.failed

/-- **The erase finds exactly one entry**, and leaves the others. -/
theorem Entered.takeOut (h : s.Entered) (hfew : s.accepted < 2 ^ 31) {conn : Nat}
    (hlt : conn < s.accepted) (hin : conn ∉ s.takenOut) : (s.takeOut conn).Entered := by
  -- names differ as long as `nextConnId_` has not wrapped around
  have hname : ∀ i ∈ s.live, (s.server.nameOf i = (s.conns conn).name_ ↔ i = conn) := by
    intro i hi
    rw [h.name conn hlt]
    constructor
    · intro heq
      exact TcpServer.nameOf_inj (by have := (mem_live.mp hi).1; omega) (by omega) heq
    · rintro rfl
      rfl
  refine ⟨h.id, h.name, ?_, ?_⟩
  · show s.server.connections_.filter (·.1 ≠ (s.conns conn).name_) =
      ((List.range s.accepted).filter (· ∉ s.takenOut ++ [conn])).map _
    have hleft : (List.range s.accepted).filter (· ∉ s.takenOut ++ [conn]) =
        s.live.filter (· ≠ conn) := by
      unfold live
      rw [List.filter_filter]
      apply List.filter_congr
      intro i hi
      simp [List.mem_append, and_comm]
    rw [h.entries, List.filter_map, hleft]
    congr 1
    apply List.filter_congr
    intro i hi
    show decide (s.server.nameOf i ≠ (s.conns conn).name_) = decide (i ≠ conn)
    rw [decide_eq_decide, ne_eq, hname i hi]
  · -- the assert behind the erase: `n == 1`
    have hone : s.server.connections_.countP (·.1 = (s.conns conn).name_) = 1 := by
      rw [h.entries, List.countP_map]
      have hsame : s.live.countP ((fun entry => decide (entry.1 = (s.conns conn).name_)) ∘
          fun conn => (s.server.nameOf conn, conn)) = s.live.count conn := by
        apply List.countP_congr
        intro i hi
        show decide (s.server.nameOf i = (s.conns conn).name_) = true ↔ (i == conn) = true
        rw [decide_eq_true_iff, hname i hi, beq_iff_eq]
      rw [hsame, List.Nodup.count live_nodup, if_pos (mem_live.mpr ⟨hlt, hin⟩)]
    show s.failed ++ (if s.server.connections_.countP (·.1 = (s.conns conn).name_) = 1 then []
      else ["n == 1"]) = []
    rw [if_pos hone, h.failed]
    rfl

theorem Entered.queueInLoop (h : s.Entered) (l : Nat) (g : ServerFunctor) :
    (s.queueInLoop l g).Entered :=
  ⟨h.id, h.name, h.entries, h.failed⟩

theorem Entered.removeConnectionInLoop (h : s.Entered) (hfew : s.accepted < 2 ^ 31) {conn : Nat}
    (hlt : conn < s.accepted) (hin : conn ∉ s.takenOut) : (s.removeConnectionInLoop conn).Entered :=
  (h.takeOut hfew hlt hin).queueInLoop ..

/-- The actions of a member function take the connection out at most once. -/
theorem Entered.acts (h : s.Entered) (hfew : s.accepted < 2 ^ 31) {thread conn : Nat}
    (hlt : conn < s.accepted) {actions : List Action}
    (honce : s.takenOut.count conn + actions.count .closeCallback ≤ 1) :
    (s.acts thread conn actions).Entered := by
  induction actions generalizing s with
  | nil => exact h
  | cons a actions ih =>
      by_cases ha : a = .closeCallback
      · subst ha
        rw [List.count_cons_self] at honce
        -- the one close that is allowed: it has not been taken out before
        have hin : conn ∉ s.takenOut := by
          rw [← List.count_eq_zero]
          omega
        show ((s.removeConnection thread conn).acts thread conn actions).Entered
        unfold removeConnection
        split
        · refine ih (h.removeConnectionInLoop hfew hlt hin) hfew hlt ?_
          show (s.takenOut ++ [conn]).count conn + _ ≤ 1
          rw [List.count_append, List.count_singleton_self]
          omega
        · refine ih (h.queueInLoop ..) hfew hlt ?_
          show s.takenOut.count conn + _ ≤ 1
          omega
      · rw [List.count_cons_of_ne ha] at honce
        cases a with
        | queueInLoop f => exact ih (h.queueInLoop ..) hfew hlt honce
        | closeCallback => exact absurd rfl ha
        | _ => exact ih h hfew hlt honce

theorem Entered.finish (h : s.Entered) (hfew : s.accepted < 2 ^ 31) {thread conn : Nat}
    {c : TcpConnection} {actions : List Action} {fs : List String} (hlt : conn < s.accepted)
    (honce : s.takenOut.count conn + actions.count .closeCallback ≤ 1) :
    (s.finish thread conn c actions fs).Entered := by
  have hacts : ((s.setConn conn c actions fs).acts thread conn actions).Entered :=
    (h.setConn conn c actions fs).acts hfew hlt honce
  exact ⟨hacts.id, hacts.name, hacts.entries, hacts.failed⟩

/-- **The name of a new connection is free.** -/
theorem Entered.makeConnection (h : s.Entered) (hbalanced : s.Balanced)
    (hfew : s.accepted + 1 < 2 ^ 31) (sockfd : Nat) : (s.makeConnection sockfd).Entered := by
  have hnew : s.server.connName = s.server.nameOf s.accepted := by
    unfold TcpServer.connName TcpServer.nameOf
    rw [h.id]
  have hfree : s.server.connections_.filter (·.1 ≠ s.server.nameOf s.accepted) =
      s.server.connections_ := by
    rw [List.filter_eq_self, h.entries]
    intro entry hentry
    obtain ⟨i, hi, rfl⟩ := List.mem_map.mp hentry
    have hlt := (mem_live.mp hi).1
    rw [decide_eq_true_iff]
    intro heq
    have hsame := TcpServer.nameOf_inj (by omega) (by omega) heq
    exact absurd hsame (Nat.ne_of_lt hlt)
  have hlast : s.accepted ∉ s.takenOut := fun hmem => Nat.lt_irrefl _ (hbalanced.taken _ hmem)
  refine ⟨?_, ?_, ?_, h.failed⟩
  · show TcpServer.increment s.server.nextConnId_ = _
    unfold TcpServer.increment
    rw [h.id, Int.bmod_add_bmod]
    rfl
  · intro j hj
    rcases Nat.lt_succ_iff_lt_or_eq.mp hj with hj | rfl
    · rw [makeConnection_of_lt hj]
      exact h.name j hj
    · rw [makeConnection_self]
      exact hnew
  · show TcpServer.assign s.server.connections_ s.server.connName s.accepted =
      ((List.range (s.accepted + 1)).filter (· ∉ s.takenOut)).map _
    unfold TcpServer.assign
    rw [hnew, hfree, List.range_succ, List.filter_append, List.map_append, h.entries,
      List.filter_singleton, decide_eq_true hlast]
    rfl

/-- **Every step keeps the book**, when no connection closes twice. -/
theorem Entered.books (h : s.Entered) (hbalanced : s.Balanced) (hbooks : s.Books s')
    (hfew : s'.accepted < 2 ^ 31) (honce : ∀ conn < s'.accepted, s'.closes conn ≤ 1)
    (hbefore : ∀ conn < s.accepted, s.closes conn ≤ 1) : s'.Entered := by
  cases hbooks with
  | same hsame => exact hsame.entered h
  | @finish now thread conn c actions fs hsame hlt =>
      rw [finish_accepted] at hfew honce
      have hlt' : conn < now.accepted := hsame.accepted ▸ hlt
      refine (hsame.entered h).finish hfew hlt' ?_
      -- with what this call closes there is still one close in all
      have hcloses := honce conn hlt'
      rw [closes_finish, if_pos rfl, (hsame.balanced hbalanced).closes conn hlt'] at hcloses
      unfold ServerRun.closing at hcloses
      omega
  | @removal conn queue hlt hnext =>
      have hwaits : 0 < s.removing conn := by
        unfold ServerRun.removing
        rw [EventLoop.waitingOf_nextFunctor _ hnext]
        show 0 < ((if conn = conn then some () else none).toList ++ _).length
        rw [if_pos rfl]
        exact Nat.succ_pos _
      -- its only close is the one whose removal has waited until now
      have hin : conn ∉ s.takenOut := by
        have hcloses := hbefore conn hlt
        rw [hbalanced.closes conn hlt] at hcloses
        unfold ServerRun.closing at hcloses
        rw [← List.count_eq_zero]
        omega
      have hqueue : (s.setQueue 0 queue).Entered := ⟨h.id, h.name, h.entries, h.failed⟩
      exact hqueue.removeConnectionInLoop hfew hlt hin
  | destroy _ _ => exact ⟨h.id, h.name, h.entries, h.failed⟩
  | @newConnection sockfd _ _ hrun =>
      have haccepted := newConnection_accepted hrun
      have hfew' : s.accepted + 1 < 2 ^ 31 := haccepted ▸ hfew
      have hmade := h.makeConnection hbalanced hfew' sockfd
      rcases newConnection_inv hrun with ⟨-, c, actions, fs, hcall, rfl⟩ | ⟨-, rfl⟩
      · have hrecorded : ((s.makeConnection sockfd).record 0 s.accepted .connectEstablished).Entered :=
          ⟨hmade.id, hmade.name, hmade.entries, hmade.failed⟩
        refine hrecorded.finish hfew' (Nat.lt_succ_self _) ?_
        have hcloses := honce s.accepted (haccepted ▸ Nat.lt_succ_self _)
        rw [closes_finish, if_pos rfl] at hcloses
        -- a new connection has never been taken out
        have htaken : s.takenOut.count s.accepted = 0 :=
          List.count_eq_zero.mpr fun hmem => Nat.lt_irrefl _ (hbalanced.taken _ hmem)
        show s.takenOut.count s.accepted + _ ≤ 1
        omega
      · exact hmade.queueInLoop ..

end ServerRun

end Simplev
