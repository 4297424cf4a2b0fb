import Mathlib.Data.Int.CardIntervalMod
import Simplev.Net.TcpServerBook

/-!
# `Net.Correctness.Dispatch` — which loop gets a connection (`EventLoopThreadPool::getNextLoop`)

`next_` goes round the I/O loops, one step for each accepted connection, and no step of the server moves
it otherwise. So the loop of a connection is known by its place in the order of acceptance, and
the connections are spread over the loops as evenly as their number allows (`load`).
-/

namespace Simplev

open Foundation TcpConnection

namespace ServerRun

variable {s s' : ServerRun}

/-- The loop of the `i`-th connection, of `n` I/O loops. -/
def turnOf (n i : Nat) : Nat := if n = 0 then 0 else i % n + 1

/-- How many of the accepted connections run in the loop `l`. -/
def load (s : ServerRun) (l : Nat) : Nat := Nat.count (fun conn => (s.conns conn).loop_ = l) s.accepted

/-- **The pool is as far round as connections were accepted.** -/
structure Rotates (n : Nat) (s : ServerRun) : Prop where
  threads : s.server.threadPool_.numThreads_ = n
  next : n ≠ 0 → s.server.threadPool_.next_ = s.accepted % n
  loop : ∀ conn < s.accepted, (s.conns conn).loop_ = turnOf n conn

theorem new_rotates (name : String) (n : Nat) (writeComplete : Bool) :
    (new name n writeComplete).Rotates n where
  threads := rfl
  next _ := (Nat.zero_mod n).symm
  loop _ := by rintro ⟨⟩

/-! ## Who moves `next_` -/

theorem act_pool (thread conn : Nat) (a : Action) :
    (s.act thread conn a).server.threadPool_ = s.server.threadPool_ := by
  cases a with
  | closeCallback =>
      show (s.removeConnection thread conn).server.threadPool_ = s.server.threadPool_
      unfold removeConnection
      split <;> rfl
  | _ => rfl

theorem acts_pool (thread conn : Nat) (actions : List Action) :
    (s.acts thread conn actions).server.threadPool_ = s.server.threadPool_ := by
  induction actions generalizing s with
  | nil => rfl
  | cons a actions ih => exact ih.trans (act_pool thread conn a)

theorem finish_pool (thread conn : Nat) (c : TcpConnection) (actions : List Action) (fs : List String) :
    (s.finish thread conn c actions fs).server.threadPool_ = s.server.threadPool_ :=
  acts_pool (s := s.setConn conn c actions fs) thread conn actions

/-- A step that accepts nothing leaves the pool. -/
theorem Books.pool (h : s.Books s') (hsame : s'.accepted = s.accepted) :
    s'.server.threadPool_ = s.server.threadPool_ := by
  cases h with
  | same same => rw [same.server]
  | finish same _ => rw [finish_pool, same.server]
  | removal _ _ => rfl
  | newConnection _ hrun =>
      rw [newConnection_accepted hrun] at hsame
      exact absurd hsame (Nat.succ_ne_self _)
  | destroy _ _ => rfl

/-- `newConnection` takes the loop that `getNextLoop` returns. -/
theorem newConnection_dispatch {sockfd : Nat} (hrun : s.newConnection sockfd = some s') :
    s'.server.threadPool_ = s.server.threadPool_.getNextLoop.2 ∧
      (s'.conns s.accepted).loop_ = s.server.threadPool_.getNextLoop.1 := by
  have hself := makeConnection_self (s := s) sockfd
  rcases newConnection_inv hrun with ⟨-, c, actions, fs, -, rfl⟩ | ⟨-, rfl⟩
  · constructor
    · rw [finish_pool]
      rfl
    · rw [finish_conns, setConn_loop]
      show ((s.makeConnection sockfd).conns s.accepted).loop_ = _
      rw [hself]
  · refine ⟨rfl, ?_⟩
    show ((s.makeConnection sockfd).conns s.accepted).loop_ = _
    rw [hself]

/-- The remainder goes round as `next_` does. -/
theorem succ_mod (m : Nat) {n : Nat} (hn : n ≠ 0) :
    (if n ≤ m % n + 1 then 0 else m % n + 1) = (m + 1) % n := by
  have hlt := Nat.mod_lt m (Nat.pos_of_ne_zero hn)
  rw [← Nat.mod_add_mod m n 1]
  by_cases hlast : n ≤ m % n + 1
  · have heq : m % n + 1 = n := Nat.le_antisymm hlt hlast
    rw [if_pos hlast, heq, Nat.mod_self]
  · rw [if_neg hlast, Nat.mod_eq_of_lt (Nat.lt_of_not_le hlast)]

theorem getNextLoop_turns {pool : EventLoopThreadPool} {n m : Nat} (hthreads : pool.numThreads_ = n)
    (hnext : n ≠ 0 → pool.next_ = m % n) :
    pool.getNextLoop.1 = turnOf n m ∧ pool.getNextLoop.2.numThreads_ = n ∧
      (n ≠ 0 → pool.getNextLoop.2.next_ = (m + 1) % n) := by
  unfold EventLoopThreadPool.getNextLoop turnOf
  rw [hthreads]
  by_cases hn : n = 0
  · rw [if_pos hn, if_pos hn]
    exact ⟨rfl, hthreads, fun hne => absurd hn hne⟩
  · rw [if_neg hn, if_neg hn, hnext hn]
    exact ⟨rfl, rfl, fun _ => succ_mod m hn⟩

theorem Rotates.step {n : Nat} (h : s.Rotates n) (hbooks : s.Books s') : s'.Rotates n := by
  have hold : ∀ conn < s.accepted, (s'.conns conn).loop_ = turnOf n conn := by
    intro conn hconn
    exact (congrArg Prod.snd (hbooks.identity hconn)).trans (h.loop conn hconn)
  rcases hbooks.accepted with ⟨-, sockfd, hrun⟩ | hsame
  · obtain ⟨hpool, hloop⟩ := newConnection_dispatch hrun
    obtain ⟨hturn, hthreads, hnext⟩ := getNextLoop_turns h.threads h.next
    have haccepted := newConnection_accepted hrun
    refine ⟨hpool ▸ hthreads, ?_, ?_⟩
    · rw [hpool, haccepted]
      exact hnext
    · intro conn hconn
      rw [haccepted] at hconn
      rcases Nat.lt_succ_iff_lt_or_eq.mp hconn with hconn | rfl
      · exact hold conn hconn
      · exact hloop.trans hturn
  · refine ⟨?_, ?_, fun conn hconn => hold conn (hsame ▸ hconn)⟩
    · rw [hbooks.pool hsame]
      exact h.threads
    · rw [hbooks.pool hsame, hsame]
      exact h.next

theorem reachable_rotates (h : serverMachine.Reachable s) :
    s.Rotates s.server.threadPool_.numThreads_ := by
  have hsome : s.Placed ∧ ∃ n, s.Rotates n := by
    refine h.invariant (I := fun s => s.Placed ∧ ∃ n, s.Rotates n) ?_ ?_
    · rintro _ ⟨name, n, writeComplete, rfl⟩
      exact ⟨new_placed name n writeComplete, n, new_rotates name n writeComplete⟩
    · rintro s e s' - ⟨hplaced, n, hrotates⟩ - hstep
      exact ⟨hplaced.step hstep, n, hrotates.step (step_books hplaced hstep)⟩
  obtain ⟨-, n, hrotates⟩ := hsome
  exact hrotates.threads ▸ hrotates

/-- **Connections go round the loops.** In every run of a server, the `i`-th connection it accepted runs in
    the I/O loop `i` modulo their number, or in the server's own loop when there is none; and each I/O loop
    has its share of all connections accepted, the earlier ones one more when they do not divide evenly. -/
theorem connections_go_round (h : serverMachine.Reachable s) :
    let n := s.server.threadPool_.numThreads_
    (∀ conn < s.accepted, (s.conns conn).loop_ = turnOf n conn) ∧
      ∀ l < n, s.load (l + 1) = s.accepted / n + if l < s.accepted % n then 1 else 0 := by
  have hloop := (reachable_rotates h).loop
  refine ⟨hloop, ?_⟩
  intro l hl
  have hpos : 0 < s.server.threadPool_.numThreads_ := Nat.lt_of_le_of_lt (Nat.zero_le l) hl
  have hiff : ∀ conn < s.accepted,
      (s.conns conn).loop_ = l + 1 ↔ conn ≡ l [MOD s.server.threadPool_.numThreads_] := by
    intro conn hconn
    rw [hloop conn hconn, turnOf, if_neg (Nat.ne_of_gt hpos), Nat.ModEq, Nat.mod_eq_of_lt hl]
    omega
  have hcount : s.load (l + 1) =
      Nat.count (· ≡ l [MOD s.server.threadPool_.numThreads_]) s.accepted :=
    Nat.le_antisymm (Nat.count_mono_left fun conn hconn => (hiff conn hconn).mp)
      (Nat.count_mono_left fun conn hconn => (hiff conn hconn).mpr)
  rw [hcount, Nat.count_modEq_card _ hpos, Nat.mod_eq_of_lt hl]

/-- Five connections to three loops. -/
theorem connections_go_round_five :
    ∃ s, serverMachine.run (new "Echo" 3 false) (List.replicate 5 (.newConnection false 9)) = some s ∧
      (s.conns 3).loop_ = 1 ∧ s.load 2 = 2 ∧ s.load 3 = 1 := by
  have hrun : (serverMachine.run (new "Echo" 3 false) (List.replicate 5 (.newConnection false 9))).map
      (fun s => (s.accepted, s.server.threadPool_.numThreads_)) = some (5, 3) := by decide +kernel
  obtain ⟨s, hs, hvalues⟩ := Option.map_eq_some_iff.mp hrun
  obtain ⟨haccepted, hthreads⟩ := Prod.mk.inj hvalues
  have hreach := Machine.run_reachable (M := serverMachine) ⟨"Echo", 3, false, rfl⟩ hs
  obtain ⟨hloop, hload⟩ := connections_go_round hreach
  rw [hthreads, haccepted] at hload hloop
  exact ⟨s, hs, hloop 3 (by decide), hload 1 (by decide), hload 2 (by decide)⟩

end ServerRun

end Simplev
