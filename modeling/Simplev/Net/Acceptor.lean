import Mathlib.Data.List.Nodup
import Simplev.Foundation.Descriptors
import Simplev.Foundation.Machine

/-!
# `Net.Acceptor` — the descriptors of an acceptor and its server (`Acceptor.cc`, `SocketsOps.cc`, `TcpServer.cc`, `Socket.cc`)

An event is one system call, with its result, and what the code does up to the next one; between two of
them other code of the process opens and closes descriptors of its own.

- **`handleRead`** accepts, and gives the descriptor to `newConnection`, or closes it when there is no
  callback. When descriptors have run out it gives up `idleFd_` for the connection to be refused, and then
  opens the reserve again; each of these calls may fail.
- **`newConnection`** closes the descriptor when `poll` fails, and otherwise makes a `TcpConnection`,
  whose `Socket` closes it.
- **`~Acceptor`** closes `idleFd_`, and after it `~Socket` the listening socket.

An error of `accept4` that `sockets::accept` does not expect aborts the process.
-/

namespace Simplev

open Foundation

namespace Acceptor

inductive Errno where
  | EAGAIN | ECONNABORTED | EINTR | EPROTO | EPERM | EMFILE
  | EBADF | EFAULT | EINVAL | ENFILE | ENOBUFS | ENOMEM | ENOTSOCK | EOPNOTSUPP
  | other (code : Nat)
deriving DecidableEq, Repr

/-- The errors that `sockets::accept` expects. -/
def Errno.expected : Errno → Bool
  | EAGAIN | ECONNABORTED | EINTR | EPROTO | EPERM | EMFILE => true
  | _ => false

/-- Whose a descriptor is. -/
inductive Owner where
  /-- `acceptSocket_`. -/
  | acceptSocket
  /-- `idleFd_`. -/
  | idleFd
  /-- `handleRead`, and the `newConnection` that it calls. -/
  | handleRead
  /-- The connections by the order of their making. -/
  | connection (i : Nat)
  /-- Other code of the process. -/
  | elsewhere
deriving DecidableEq, Repr

/-- A `TcpConnection` that `newConnection` made. -/
structure TcpConnection where
  /-- Of its `Socket`. -/
  sockfd_ : Int
  /-- What that names. -/
  file : Nat
  /-- It has not been destroyed. -/
  alive : Bool
deriving DecidableEq, Repr

/-- Where the acceptor is. -/
inductive Stage where
  | unborn
  /-- `acceptSocket_` has been made. -/
  | constructing
  /-- In the event loop, outside `handleRead`. -/
  | waiting
  /-- `accept4` has returned `connfd`, which names this file. -/
  | accepted (connfd : Int) (file : Nat)
  /-- It has failed with `EMFILE`, and the reserve is next to be closed. -/
  | exhausted
  /-- `::accept` is next. -/
  | accepting
  /-- What it returned is next to be closed. -/
  | refusing
  /-- `::open` is next. -/
  | reopening
  /-- `~Acceptor` has closed `idleFd_`. -/
  | destroying
  | gone
  | aborted
deriving DecidableEq, Repr

/-- The acceptor with the server whose `newConnection` it calls. -/
structure State where
  stage : Stage
  acceptSocket_ : Int
  idleFd_ : Int
  /-- It is set. -/
  newConnectionCallback_ : Bool
  /-- All that have been made, in order. -/
  connections : List TcpConnection
  kernel : Descriptors Owner
  /-- What `accept4` returned to `handleRead`, as files. -/
  accepted : List Nat
  /-- The values that `idleFd_` received. -/
  received : List Int

def State.new (callback : Bool) : State := ⟨.unborn, 0, 0, callback, [], .empty, [], []⟩

inductive Event where
  /-- `createNonblockingOrDie()` has returned `sockfd`. -/
  | construct (sockfd : Int)
  /-- `idleFd_(::open(…))`. -/
  | openIdle (result : Int)
  | accept4 (result : Int) (errno : Errno)
  /-- `newConnectionCallback_`, with what `poll` returns, or `sockets::close(connfd)`. -/
  | newConnection (poll : Int)
  /-- `::close(idleFd_)`. -/
  | closeIdle
  | accept (result : Int)
  | open (result : Int)
  /-- `~TcpConnection`. -/
  | destroyConnection (i : Nat)
  /-- `~Acceptor`. -/
  | destroy
  /-- `~Socket` of `acceptSocket_`. -/
  | destroySocket
  | elsewhereOpens (fd : Int)
  | elsewhereCloses (fd : Int)
deriving DecidableEq, Repr

namespace State

/-- `idleFd_ = result`. -/
def setIdle (s : State) (result : Int) (stage : Stage) (kernel : Descriptors Owner) : State :=
  { s with idleFd_ := result, received := s.received ++ [result], stage := stage, kernel := kernel }

/-- `close(idleFd_)`. -/
def closeIdle (s : State) (stage : Stage) : State :=
  { s with kernel := s.kernel.close .idleFd s.idleFd_, stage := stage }

/-- `sockets::close(connfd)`. -/
def refuse (s : State) (connfd : Int) : State :=
  { s with kernel := s.kernel.close .handleRead connfd, stage := .waiting }

/-- `TcpServer::newConnection`, where `poll` has returned `poll`. -/
def newConnection (s : State) (sockfd : Int) (file : Nat) (poll : Int) : State :=
  if poll < 0 then s.refuse sockfd
  else
    { s with
      connections := s.connections ++ [⟨sockfd, file, true⟩]
      kernel := s.kernel.handOver sockfd (.connection s.connections.length)
      stage := .waiting }

/-- The `Socket` of connection `i` closes its descriptor. -/
def destroyConnection (s : State) (i : Nat) (c : TcpConnection) : State :=
  { s with
    connections := s.connections.set i { c with alive := false }
    kernel := s.kernel.close (.connection i) c.sockfd_ }

def step (s : State) : Event → Option State
  | .construct sockfd =>
    if s.stage = .unborn then do
      let kernel ← s.kernel.receive sockfd .acceptSocket
      return { s with acceptSocket_ := sockfd, kernel := kernel, stage := .constructing }
    else none
  | .openIdle result =>
    if s.stage = .constructing then do
      let kernel ← s.kernel.result result .idleFd
      return s.setIdle result .waiting kernel
    else none
  | .accept4 result errno =>
    if s.stage = .waiting then
      if result = -1 then
        if !errno.expected then some { s with stage := .aborted }
        else if errno = .EMFILE then some { s with stage := .exhausted }
        else some s
      else do
        let kernel ← s.kernel.receive result .handleRead
        return { s with
          kernel := kernel
          accepted := s.accepted ++ [s.kernel.files]
          stage := .accepted result s.kernel.files }
    else none
  | .newConnection poll =>
    match s.stage with
    | .accepted connfd file =>
      some (if s.newConnectionCallback_ then s.newConnection connfd file poll else s.refuse connfd)
    | _ => none
  | .closeIdle =>
    match s.stage with
    | .exhausted => some (s.closeIdle .accepting)
    | .refusing => some (s.closeIdle .reopening)
    | _ => none
  | .accept result =>
    if s.stage = .accepting then do
      let kernel ← s.kernel.result result .idleFd
      return s.setIdle result .refusing kernel
    else none
  | .open result =>
    if s.stage = .reopening then do
      let kernel ← s.kernel.result result .idleFd
      return s.setIdle result .waiting kernel
    else none
  | .destroyConnection i => do
    let c ← s.connections[i]?
    if c.alive ∧ s.stage ≠ .aborted then return s.destroyConnection i c
    else none
  | .destroy => if s.stage = .waiting then some (s.closeIdle .destroying) else none
  | .destroySocket =>
    if s.stage = .destroying then
      some { s with kernel := s.kernel.close .acceptSocket s.acceptSocket_, stage := .gone }
    else none
  | .elsewhereOpens fd =>
    if s.stage ≠ .aborted then do
      let kernel ← s.kernel.receive fd .elsewhere
      return { s with kernel := kernel }
    else none
  | .elsewhereCloses fd =>
    if s.stage ≠ .aborted ∧ (s.kernel.table fd).map OpenFile.owner = some .elsewhere then
      some { s with kernel := s.kernel.close .elsewhere fd }
    else none

end State

/-- All runs of an acceptor, with or without a callback. -/
def machine : Machine State Event where
  init s := ∃ callback, s = State.new callback
  step := State.step

/-! ## Accounts -/

/-- The descriptors that `handleRead` and `newConnection` have closed, as files. -/
def refusals (closes : List (Close Owner)) (file : Nat) : Nat :=
  closes.countP fun c => c.closer = .handleRead ∧ c.found.map OpenFile.file = some file

/-- The connections that were given the file. -/
def connectionsOf (connections : List TcpConnection) (file : Nat) : Nat :=
  connections.countP fun c => c.file = file

def destroyedOf (connections : List TcpConnection) (file : Nat) : Nat :=
  connections.countP fun c => c.file = file ∧ c.alive = false

/-- The numbers that `close(idleFd_)` was called with. -/
def idleCloses (closes : List (Close Owner)) : List Int :=
  (closes.filter fun c => c.closer = .idleFd).map Close.fd

/-- A connection's or `handleRead`'s. -/
def Owner.ofConnection : Owner → Bool
  | handleRead | connection _ => true
  | _ => false

/-- **The accounts** of what `accept4` returned, `hand` being what `handleRead` has in hand. -/
structure Accounts (kernel : Descriptors Owner) (accepted : List Nat) (hand : Option Nat)
    (connections : List TcpConnection) : Prop where
  nodup : accepted.Nodup
  bound : ∀ file ∈ accepted, file < kernel.files
  /-- What is open was accepted, or not, according to whose it is. -/
  source : ∀ {fd o}, kernel.table fd = some o → (o.file ∈ accepted ↔ o.owner.ofConnection = true)
  once : ∀ file, (if hand = some file then 1 else 0) + refusals kernel.closes file +
    connectionsOf connections file = accepted.count file
  closed : ∀ file ∈ accepted,
    closedTimes kernel.closes file = refusals kernel.closes file + destroyedOf connections file
  /-- Every close but those of -1 finds what is its own. -/
  rightful : ∀ c ∈ kernel.closes, c.fd = -1 ∨ ∃ file, c.found = some ⟨file, c.closer⟩

theorem refusals_append (closes : List (Close Owner)) (c : Close Owner) (file : Nat) :
    refusals (closes ++ [c]) file = refusals closes file +
      if c.closer = .handleRead ∧ c.found.map OpenFile.file = some file then 1 else 0 := by
  rw [refusals, List.countP_append, List.countP_singleton]
  simp [refusals]

theorem idleCloses_append (closes : List (Close Owner)) (c : Close Owner) :
    idleCloses (closes ++ [c]) = idleCloses closes ++ if c.closer = .idleFd then [c.fd] else [] := by
  rw [idleCloses, List.filter_append, List.map_append]
  by_cases hcloser : c.closer = .idleFd <;> simp [idleCloses, hcloser]

theorem idleCloses_idle (kernel : Descriptors Owner) (fd : Int) :
    idleCloses (kernel.close .idleFd fd).closes = idleCloses kernel.closes ++ [fd] :=
  (idleCloses_append _ _).trans (congrArg _ (if_pos rfl))

/-- A close by another owner is not one of `idleFd_`. -/
theorem idleCloses_other (kernel : Descriptors Owner) {owner : Owner} (h : owner ≠ .idleFd) (fd : Int) :
    idleCloses (kernel.close owner fd).closes = idleCloses kernel.closes := by
  refine (idleCloses_append _ _).trans ?_
  rw [if_neg h, List.append_nil]

namespace Accounts

variable {kernel kernel' : Descriptors Owner} {accepted : List Nat} {hand : Option Nat}
  {connections : List TcpConnection} {fd : Int} {file : Nat} {owner : Owner}

theorem empty : Accounts .empty [] none [] where
  nodup := List.nodup_nil
  bound := by simp
  source := by intro _ _ h; cases h
  once _ := rfl
  closed := by simp
  rightful := by rintro _ ⟨⟩

/-- A descriptor that is not a connection's is opened. -/
theorem receive (h : Accounts kernel accepted hand connections)
    (hreceive : kernel.receive fd owner = some kernel') (howner : owner.ofConnection = false) :
    Accounts kernel' accepted hand connections := by
  obtain ⟨-, hnew, hfiles, hcloses, hothers⟩ := Descriptors.receive_cases hreceive
  refine ⟨h.nodup, fun file hfile => ?_, fun {fd' o} ho => ?_, ?_, ?_, ?_⟩
  · have hbound := h.bound file hfile
    omega
  · by_cases heq : fd' = fd
    · subst heq
      obtain rfl := Option.some.inj (hnew.symm.trans ho)
      refine iff_of_false (fun hfile => ?_) (by simp [howner])
      exact absurd (h.bound _ hfile) (Nat.lt_irrefl _)
    · rw [hothers fd' heq] at ho
      exact h.source ho
  · rw [hcloses]
    exact h.once
  · rw [hcloses]
    exact h.closed
  · rw [hcloses]
    exact h.rightful

/-- `accept4` returns a descriptor to `handleRead`. -/
theorem accept (h : Accounts kernel accepted none connections)
    (hreceive : kernel.receive fd .handleRead = some kernel') :
    Accounts kernel' (accepted ++ [kernel.files]) (some kernel.files) connections := by
  obtain ⟨-, hnew, hfiles, hcloses, hothers⟩ := Descriptors.receive_cases hreceive
  have hfresh : kernel.files ∉ accepted := fun hfile => absurd (h.bound _ hfile) (Nat.lt_irrefl _)
  have hcount := List.count_eq_zero.mpr hfresh
  constructor
  · rw [List.nodup_append]
    refine ⟨h.nodup, List.pairwise_singleton _ _, fun file hfile file' hfile' heq => ?_⟩
    rw [heq, List.mem_singleton.mp hfile'] at hfile
    exact hfresh hfile
  · intro file hfile
    rcases List.mem_append.mp hfile with hfile | hfile
    · have hbound := h.bound file hfile
      omega
    · rw [List.mem_singleton.mp hfile]
      omega
  · intro fd' o ho
    -- every other descriptor is of an older file
    by_cases heq : fd' = fd
    · subst heq
      obtain rfl := Option.some.inj (hnew.symm.trans ho)
      exact iff_of_true (List.mem_append_right _ List.mem_cons_self) rfl
    · rw [hothers fd' heq] at ho
      have hne : o.file ≠ kernel.files := Nat.ne_of_lt (kernel.ledger.bound ho)
      rw [List.mem_append, List.mem_singleton, or_iff_left hne]
      exact h.source ho
  · intro file
    have honce := h.once file
    rw [hcloses, List.count_append, List.count_singleton]
    simp only [reduceCtorEq, if_false, Option.some.injEq, beq_iff_eq] at honce ⊢
    omega
  · intro file hfile
    rw [hcloses]
    rcases List.mem_append.mp hfile with hfile | hfile
    · exact h.closed file hfile
    · have honce := h.once kernel.files
      rw [hcount] at honce
      have hdestroyed : destroyedOf connections kernel.files ≤ connectionsOf connections kernel.files :=
        List.countP_mono_left fun c _ hc => by
          simp only [decide_eq_true_eq] at hc ⊢
          exact hc.1
      rw [List.mem_singleton.mp hfile, kernel.ledger.beyond (Nat.le_refl _)]
      omega
  · rw [hcloses]
    exact h.rightful

/-- What is open after a close was open before. -/
theorem source_close (h : Accounts kernel accepted hand connections) {closer : Owner} {fd' : Int}
    {o : OpenFile Owner} (ho : (kernel.close closer fd).table fd' = some o) :
    o.file ∈ accepted ↔ o.owner.ofConnection = true := by
  refine h.source (?_ : kernel.table fd' = some o)
  have htable : (kernel.close closer fd).table fd' = Function.update kernel.table fd none fd' := rfl
  by_cases heq : fd' = fd
  · rw [htable, heq, Function.update_self] at ho
    cases ho
  · rw [← ho, htable, Function.update_of_ne heq]

theorem rightful_close (h : Accounts kernel accepted hand connections)
    (hown : fd = -1 ∨ ∃ file, kernel.Owns owner fd file) :
    ∀ c ∈ (kernel.close owner fd).closes, c.fd = -1 ∨ ∃ file, c.found = some ⟨file, c.closer⟩ := by
  intro c hc
  rcases List.mem_append.mp hc with hc | hc
  · exact h.rightful c hc
  · rw [List.mem_singleton.mp hc]
    exact hown

/-- Other code closes what is its own, or `close(-1)` is called. -/
theorem close (h : Accounts kernel accepted hand connections)
    (hown : fd = -1 ∨ ∃ file, kernel.Owns owner fd file) (howner : owner.ofConnection = false) :
    Accounts (kernel.close owner fd) accepted hand connections := by
  have hrefusals : ∀ file, refusals (kernel.close owner fd).closes file = refusals kernel.closes file := by
    intro file
    have hne : owner ≠ .handleRead := by
      rintro rfl
      exact absurd howner (by decide)
    refine (refusals_append _ _ _).trans ?_
    simp [hne]
  refine ⟨h.nodup, h.bound, h.source_close, fun file => ?_, fun file hfile => ?_, h.rightful_close hown⟩
  · rw [hrefusals]
    exact h.once file
  · have hfound : (kernel.table fd).map OpenFile.file ≠ some file := by
      -- what is not a connection's was not accepted
      intro hfound
      obtain ⟨o, ho, rfl⟩ := Option.map_eq_some_iff.mp hfound
      rcases hown with rfl | ⟨file', hown⟩
      · rw [kernel.ledger.valid (by decide)] at ho
        cases ho
      · have hofConnection := (h.source ho).mp hfile
        rw [Option.some.inj (ho.symm.trans hown), howner] at hofConnection
        cases hofConnection
    rw [hrefusals, ← h.closed file hfile]
    refine (closedTimes_append _ _ _).trans ?_
    rw [if_neg hfound, Nat.add_zero]

/-- What `handleRead` has in hand is closed. -/
theorem refuse (h : Accounts kernel accepted (some file) connections)
    (hown : kernel.Owns .handleRead fd file) :
    Accounts (kernel.close .handleRead fd) accepted none connections := by
  have hfound : ∀ file', (kernel.table fd).map OpenFile.file = some file' ↔ file = file' := by
    intro file'
    rw [show kernel.table fd = some ⟨file, .handleRead⟩ from hown, Option.map_some, Option.some.injEq]
  have hrefusals : ∀ file', refusals (kernel.close .handleRead fd).closes file' =
      refusals kernel.closes file' + if file = file' then 1 else 0 := by
    intro file'
    refine (refusals_append _ _ _).trans ?_
    simp only [hfound, true_and]
  have hclosed : ∀ file', closedTimes (kernel.close .handleRead fd).closes file' =
      closedTimes kernel.closes file' + if file = file' then 1 else 0 := by
    intro file'
    refine (closedTimes_append _ _ _).trans ?_
    simp only [hfound]
  refine ⟨h.nodup, h.bound, h.source_close, fun file' => ?_, fun file' hfile' => ?_,
    h.rightful_close (Or.inr ⟨file, hown⟩)⟩
  · have honce := h.once file'
    simp only [Option.some.injEq] at honce
    simp only [hrefusals, reduceCtorEq, if_false]
    omega
  · have hclosed' := h.closed file' hfile'
    rw [hrefusals, hclosed]
    omega

/-- What `handleRead` has in hand is given to a new connection. -/
theorem newConnection (h : Accounts kernel accepted (some file) connections) (i : Nat)
    (hown : kernel.Owns .handleRead fd file) :
    Accounts (kernel.handOver fd (.connection i)) accepted none (connections ++ [⟨fd, file, true⟩]) := by
  have hfile : file ∈ accepted := (h.source hown).mpr rfl
  refine ⟨h.nodup, ?_, ?_, fun file' => ?_, fun file' hfile' => ?_, ?_⟩
  · rw [Descriptors.handOver_files]
    exact h.bound
  · intro fd' o ho
    by_cases heq : fd' = fd
    · subst heq
      obtain rfl := Option.some.inj (ho.symm.trans hown.handedOver)
      exact iff_of_true hfile rfl
    · rw [Descriptors.handOver_of_ne heq] at ho
      exact h.source ho
  · have honce := h.once file'
    rw [Descriptors.handOver_closes, connectionsOf, List.countP_append, List.countP_singleton]
    simp only [Option.some.injEq, connectionsOf] at honce
    simp only [reduceCtorEq, if_false, decide_eq_true_eq]
    omega
  · rw [Descriptors.handOver_closes, destroyedOf, List.countP_append, List.countP_singleton]
    simp only [reduceCtorEq, and_false, decide_false, if_false, Bool.false_eq_true]
    exact h.closed file' hfile'
  · rw [Descriptors.handOver_closes]
    exact h.rightful

/-- A connection closes its descriptor. -/
theorem destroy (h : Accounts kernel accepted hand connections) {i : Nat} {c : TcpConnection}
    (hc : connections[i]? = some c) (halive : c.alive = true)
    (hown : kernel.Owns (.connection i) c.sockfd_ c.file) :
    Accounts (kernel.close (.connection i) c.sockfd_) accepted hand
      (connections.set i { c with alive := false }) := by
  obtain ⟨hlt, hget⟩ := List.getElem?_eq_some_iff.mp hc
  have hrefusals : ∀ file, refusals (kernel.close (.connection i) c.sockfd_).closes file =
      refusals kernel.closes file := by
    intro file
    refine (refusals_append _ _ _).trans ?_
    simp
  have hclosed : ∀ file, closedTimes (kernel.close (.connection i) c.sockfd_).closes file =
      closedTimes kernel.closes file + if c.file = file then 1 else 0 := by
    intro file
    refine (closedTimes_append _ _ _).trans ?_
    simp only [show kernel.table c.sockfd_ = some ⟨c.file, .connection i⟩ from hown, Option.map_some,
      Option.some.injEq]
  have hmem : c ∈ connections := hget ▸ List.getElem_mem hlt
  refine ⟨h.nodup, h.bound, h.source_close, fun file => ?_, fun file hfile => ?_,
    h.rightful_close (Or.inr ⟨c.file, hown⟩)⟩
  · have hsame : connectionsOf (connections.set i { c with alive := false }) file =
        connectionsOf connections file := by
      rw [connectionsOf, List.countP_set hlt, hget, connectionsOf]
      by_cases heq : c.file = file
      · have hpos : 0 < connections.countP fun c => decide (c.file = file) :=
          List.countP_pos_iff.mpr ⟨c, hmem, decide_eq_true heq⟩
        simp only [heq, decide_true, if_true]
        omega
      · simp [heq]
    rw [hrefusals, hsame]
    exact h.once file
  · have hmore : destroyedOf (connections.set i { c with alive := false }) file =
        destroyedOf connections file + if c.file = file then 1 else 0 := by
      rw [destroyedOf, List.countP_set hlt, hget, destroyedOf]
      simp [halive]
    have hclosed' := h.closed file hfile
    rw [hrefusals, hclosed, hmore]
    omega

end Accounts

namespace Stage

/-- What `handleRead` has accepted and not yet given away. -/
def hand : Stage → Option Nat
  | accepted _ file => some file
  | _ => none

/-- `idleFd_` holds a value that has not been closed. -/
def holdsIdle : Stage → Bool
  | waiting | accepted .. | exhausted | refusing | aborted => true
  | _ => false

/-- `acceptSocket_` exists. -/
def hasSocket : Stage → Bool
  | unborn | gone => false
  | _ => true

theorem hand_eq_some {stage : Stage} {file : Nat} :
    stage.hand = some file ↔ ∃ fd, stage = accepted fd file := by
  cases stage with
  | accepted fd file' => simp [hand]
  | _ => simp [hand]

/-- Outside `accepted` nothing is in hand. -/
theorem hand_congr {stage stage' : Stage}
    (h : ∀ fd file, stage' = accepted fd file ↔ stage = accepted fd file) : stage'.hand = stage.hand := by
  apply Option.ext
  intro file
  show stage'.hand = some file ↔ stage.hand = some file
  rw [hand_eq_some, hand_eq_some]
  exact exists_congr fun fd => h fd file

end Stage

namespace State

variable {s s' : State}

/-- **What the acceptor and the connections own.** -/
structure Sound (s : State) : Prop where
  accounts : Accounts s.kernel s.accepted s.stage.hand s.connections
  acceptSocket : s.stage.hasSocket = true → ∃ file, s.kernel.Owns .acceptSocket s.acceptSocket_ file
  idle : s.stage.holdsIdle = true → s.idleFd_ = -1 ∨ ∃ file, s.kernel.Owns .idleFd s.idleFd_ file
  received : s.received = idleCloses s.kernel.closes ++ if s.stage.holdsIdle then [s.idleFd_] else []
  hand : ∀ {fd file}, s.stage = .accepted fd file → s.kernel.Owns .handleRead fd file
  connections : ∀ {i c}, s.connections[i]? = some c → c.alive = true →
    s.kernel.Owns (.connection i) c.sockfd_ c.file

theorem new_sound (callback : Bool) : (State.new callback).Sound where
  accounts := Accounts.empty
  acceptSocket := by rintro ⟨⟩
  idle := by rintro ⟨⟩
  received := rfl
  hand := by simp [new]
  connections := by simp [new]

/-- Some number becomes open, and nobody's number changes. -/
theorem Sound.receive (h : s.Sound) {fd : Int} {owner : Owner} {kernel : Descriptors Owner}
    (hreceive : s.kernel.receive fd owner = some kernel) (howner : owner.ofConnection = false) :
    ({ s with kernel := kernel } : State).Sound where
  accounts := h.accounts.receive hreceive howner
  acceptSocket hsocket := (h.acceptSocket hsocket).imp fun _ hown => hown.receive hreceive
  idle hholds := (h.idle hholds).imp_right fun ⟨file, hown⟩ => ⟨file, hown.receive hreceive⟩
  received := by
    rw [(Descriptors.receive_cases hreceive).2.2.2.1]
    exact h.received
  hand hstage := (h.hand hstage).receive hreceive
  connections hc halive := (h.connections hc halive).receive hreceive

/-- Some owner closes a number of its own, and the others keep theirs. -/
theorem Sound.close (h : s.Sound) {fd : Int} {owner : Owner} (howner : owner.ofConnection = false)
    (hown : fd = -1 ∨ ∃ file, s.kernel.Owns owner fd file) {stage : Stage}
    (hhand : ∀ fd' file', stage = .accepted fd' file' ↔ s.stage = .accepted fd' file')
    (hsocket : stage.hasSocket = true → s.stage.hasSocket = true ∧ owner ≠ .acceptSocket)
    (hidle : stage.holdsIdle = true → s.stage.holdsIdle = true ∧ owner ≠ .idleFd)
    (hreceived : s.received = idleCloses (s.kernel.close owner fd).closes ++
      if stage.holdsIdle then [s.idleFd_] else []) :
    ({ s with stage := stage, kernel := s.kernel.close owner fd } : State).Sound := by
  have hkeep : ∀ {owner' fd' file'}, s.kernel.Owns owner' fd' file' → owner' ≠ owner →
      (s.kernel.close owner fd).Owns owner' fd' file' := by
    intro owner' fd' file' hown' hne
    refine hown'.close ?_
    rcases hown with rfl | ⟨file, hown⟩
    · rintro rfl
      exact absurd ((s.kernel.ledger.valid (by decide)).symm.trans hown') (by simp)
    · exact hown'.ne hown hne
  have hofConnection : ∀ {owner'}, owner'.ofConnection = true → owner' ≠ owner := by
    rintro owner' hof rfl
    rw [howner] at hof
    cases hof
  constructor
  · show Accounts _ _ stage.hand _
    rw [Stage.hand_congr hhand]
    exact h.accounts.close hown howner
  · intro hhas
    obtain ⟨hhas, hne⟩ := hsocket hhas
    exact (h.acceptSocket hhas).imp fun _ hown' => hkeep hown' hne.symm
  · intro hholds
    obtain ⟨hholds, hne⟩ := hidle hholds
    exact (h.idle hholds).imp_right fun ⟨file, hown'⟩ => ⟨file, hkeep hown' hne.symm⟩
  · exact hreceived
  · intro fd' file' hstage
    exact hkeep (h.hand ((hhand fd' file').mp hstage)) (hofConnection rfl)
  · intro i c hc halive
    exact hkeep (h.connections hc halive) (hofConnection rfl)

/-- What is in a list with one more is in the list, or that one. -/
theorem getElem?_concat_cases {α : Type} {l : List α} {a c : α} {i : Nat} (h : (l ++ [a])[i]? = some c) :
    l[i]? = some c ∨ i = l.length ∧ c = a := by
  rcases Nat.lt_trichotomy i l.length with hlt | rfl | hgt
  · rw [List.getElem?_append_left hlt] at h
    exact Or.inl h
  · rw [List.getElem?_concat_length] at h
    exact Or.inr ⟨rfl, (Option.some.inj h).symm⟩
  · rw [List.getElem?_append_right (Nat.le_of_lt hgt),
      List.getElem?_eq_none (by rw [List.length_singleton]; omega)] at h
    cases h

theorem not_accepted_iff {stage : Stage} (h : ∀ fd file, s.stage ≠ .accepted fd file)
    (h' : ∀ fd file, stage ≠ .accepted fd file) (fd : Int) (file : Nat) :
    stage = .accepted fd file ↔ s.stage = .accepted fd file :=
  iff_of_false (h' fd file) (h fd file)

/-- The acceptor moves, and touches no descriptor. -/
theorem Sound.move (h : s.Sound) {stage : Stage}
    (hhand : ∀ fd file, stage = .accepted fd file ↔ s.stage = .accepted fd file)
    (hsocket : stage.hasSocket = true → s.stage.hasSocket = true)
    (hidle : stage.holdsIdle = true ↔ s.stage.holdsIdle = true) :
    ({ s with stage := stage } : State).Sound where
  accounts := by
    rw [Stage.hand_congr hhand]
    exact h.accounts
  acceptSocket hhas := h.acceptSocket (hsocket hhas)
  idle hholds := h.idle (hidle.mp hholds)
  received := h.received.trans (congrArg _ (if_congr hidle.symm rfl rfl))
  hand hstage := h.hand ((hhand _ _).mp hstage)
  connections := h.connections

/-- `idleFd_` receives a value. -/
theorem Sound.setIdle (h : s.Sound) {result : Int} {kernel : Descriptors Owner} {stage : Stage}
    (hresult : s.kernel.result result .idleFd = some kernel) (hholds : ¬ s.stage.holdsIdle = true)
    (hholds' : stage.holdsIdle = true)
    (hhand : ∀ fd file, stage = .accepted fd file ↔ s.stage = .accepted fd file)
    (hsocket : stage.hasSocket = true → s.stage.hasSocket = true) :
    (s.setIdle result stage kernel).Sound := by
  have hreceived := h.received
  rw [if_neg hholds, List.append_nil] at hreceived
  obtain ⟨hsound, hown, hcloses⟩ : ({ s with kernel := kernel } : State).Sound ∧
      (result = -1 ∨ ∃ file, kernel.Owns .idleFd result file) ∧ kernel.closes = s.kernel.closes := by
    unfold Descriptors.result at hresult
    split at hresult
    · rename_i hfailed
      obtain rfl := Option.some.inj hresult
      exact ⟨h, Or.inl hfailed, rfl⟩
    · obtain ⟨-, hown, -, hcloses, -⟩ := Descriptors.receive_cases hresult
      exact ⟨h.receive hresult rfl, Or.inr ⟨_, hown⟩, hcloses⟩
  constructor
  · show Accounts _ _ stage.hand _
    rw [Stage.hand_congr hhand]
    exact hsound.accounts
  · intro hhas
    exact hsound.acceptSocket (hsocket hhas)
  · intro _
    exact hown
  · show s.received ++ [result] = idleCloses kernel.closes ++ if stage.holdsIdle then [result] else []
    rw [hreceived, if_pos hholds', hcloses]
  · intro fd file hstage
    exact hsound.hand ((hhand fd file).mp hstage)
  · exact hsound.connections

theorem Sound.accept4 (h : s.Sound) {result : Int} {kernel : Descriptors Owner}
    (hstage : s.stage = .waiting) (hreceive : s.kernel.receive result .handleRead = some kernel) :
    ({ s with
        kernel := kernel
        accepted := s.accepted ++ [s.kernel.files]
        stage := .accepted result s.kernel.files } : State).Sound := by
  obtain ⟨-, hown, -, hcloses, -⟩ := Descriptors.receive_cases hreceive
  have haccounts := h.accounts
  rw [hstage] at haccounts
  constructor
  · exact haccounts.accept hreceive
  · intro _
    exact (h.acceptSocket (by rw [hstage]; rfl)).imp fun _ hown => hown.receive hreceive
  · intro _
    exact (h.idle (by rw [hstage]; rfl)).imp_right fun ⟨file, hown⟩ =>
      ⟨file, hown.receive hreceive⟩
  · show s.received = idleCloses kernel.closes ++ _
    rw [hcloses, h.received]
    simp [Stage.holdsIdle, hstage]
  · intro fd file hsame
    obtain ⟨rfl, rfl⟩ := Stage.accepted.inj hsame
    exact hown
  · intro i c hc halive
    exact (h.connections hc halive).receive hreceive

theorem Sound.refuse (h : s.Sound) {connfd : Int} {file : Nat} (hstage : s.stage = .accepted connfd file) :
    (s.refuse connfd).Sound := by
  have hown := h.hand hstage
  have haccounts := h.accounts
  rw [hstage] at haccounts
  constructor
  · exact haccounts.refuse hown
  · intro _
    exact (h.acceptSocket (by rw [hstage]; rfl)).imp fun _ hown' =>
      hown'.close (hown'.ne hown (by simp))
  · intro _
    exact (h.idle (by rw [hstage]; rfl)).imp_right fun ⟨file', hown'⟩ =>
      ⟨file', hown'.close (hown'.ne hown (by simp))⟩
  · show s.received = idleCloses (s.kernel.close .handleRead connfd).closes ++ _
    rw [idleCloses_other _ (by simp), h.received]
    simp [Stage.holdsIdle, hstage, State.refuse]
  · intro _ _ h; cases h
  · intro i c hc halive
    have hown' := h.connections hc halive
    exact hown'.close (hown'.ne hown (by simp))

theorem Sound.newConnection (h : s.Sound) {connfd : Int} {file : Nat}
    (hstage : s.stage = .accepted connfd file) (poll : Int) :
    (s.newConnection connfd file poll).Sound := by
  unfold State.newConnection
  split
  · exact h.refuse hstage
  · have hown := h.hand hstage
    have haccounts := h.accounts
    rw [hstage] at haccounts
    constructor
    · exact haccounts.newConnection _ hown
    · intro _
      exact (h.acceptSocket (by rw [hstage]; rfl)).imp fun _ hown' =>
        hown'.handOver (hown'.ne hown (by simp))
    · intro _
      exact (h.idle (by rw [hstage]; rfl)).imp_right fun ⟨file', hown'⟩ =>
        ⟨file', hown'.handOver (hown'.ne hown (by simp))⟩
    · show s.received = idleCloses (s.kernel.handOver _ _).closes ++ _
      rw [Descriptors.handOver_closes, h.received]
      simp [Stage.holdsIdle, hstage]
    · simp
    · intro i c hc halive
      rcases getElem?_concat_cases hc with hc | ⟨rfl, rfl⟩
      · have hown' := h.connections hc halive
        exact hown'.handOver (hown'.ne hown (by simp))
      · exact hown.handedOver

/-- `~TcpConnection`. -/
theorem Sound.destroyConnection (h : s.Sound) {i : Nat} {c : TcpConnection}
    (hc : s.connections[i]? = some c) (halive : c.alive = true) : (s.destroyConnection i c).Sound := by
  have hown := h.connections hc halive
  constructor
  · exact h.accounts.destroy hc halive hown
  · intro hhas
    exact (h.acceptSocket hhas).imp fun _ hown' => hown'.close (hown'.ne hown (by simp))
  · intro hholds
    exact (h.idle hholds).imp_right fun ⟨file', hown'⟩ => ⟨file', hown'.close (hown'.ne hown (by simp))⟩
  · show s.received = idleCloses (s.kernel.close (.connection i) c.sockfd_).closes ++ _
    rw [idleCloses_other _ (by simp)]
    exact h.received
  · intro fd file hstage
    have hown' := h.hand hstage
    exact hown'.close (hown'.ne hown (by simp))
  · intro j c' hc' halive'
    by_cases hij : i = j
    · subst hij
      rw [show (s.destroyConnection i c).connections = s.connections.set i _ from rfl,
        List.getElem?_set_self (List.getElem?_eq_some_iff.mp hc).1] at hc'
      rw [← Option.some.inj hc'] at halive'
      cases halive'
    · have hold : s.connections[j]? = some c' := by
        rw [← List.getElem?_set_ne hij]
        exact hc'
      have hown' := h.connections hold halive'
      refine hown'.close (hown'.ne hown fun hsame => ?_)
      exact hij (Owner.connection.inj hsame).symm

/-- `close(idleFd_)` closes the last value that `idleFd_` received. -/
theorem Sound.closeIdle (h : s.Sound) {stage : Stage} (hholds : s.stage.holdsIdle = true)
    (hholds' : stage.holdsIdle = false)
    (hhand : ∀ fd file, stage = .accepted fd file ↔ s.stage = .accepted fd file)
    (hsocket : s.stage.hasSocket = true) : (s.closeIdle stage).Sound := by
  have hreceived := h.received
  rw [if_pos hholds] at hreceived
  refine h.close rfl (h.idle hholds) hhand (fun _ => ⟨hsocket, by simp⟩) ?_ ?_
  · intro hholds''
    rw [hholds'] at hholds''
    cases hholds''
  · rw [idleCloses_idle, hreceived, hholds']
    simp

/-- The constructor receives the listening socket. -/
theorem Sound.construct (h : s.Sound) {sockfd : Int} {kernel : Descriptors Owner}
    (hstage : s.stage = .unborn) (hreceive : s.kernel.receive sockfd .acceptSocket = some kernel) :
    ({ s with acceptSocket_ := sockfd, kernel := kernel, stage := .constructing } : State).Sound := by
  have hsound := h.receive hreceive rfl
  have hreceived := hsound.received
  have haccounts := hsound.accounts
  rw [hstage] at hreceived haccounts
  refine ⟨haccounts, fun _ => ?_, nofun, hreceived, nofun, hsound.connections⟩
  exact ⟨_, (Descriptors.receive_cases hreceive).2.1⟩

/-- `~Acceptor` closes `acceptSocket_` behind `idleFd_`. -/
theorem Sound.destroySocket (h : s.Sound) (hstage : s.stage = .destroying) :
    ({ s with kernel := s.kernel.close .acceptSocket s.acceptSocket_, stage := .gone } : State).Sound := by
  have hreceived := h.received
  rw [hstage] at hreceived
  refine h.close rfl (Or.inr (h.acceptSocket ?_)) (not_accepted_iff ?_ nofun) nofun nofun ?_
  · simp [hstage, Stage.hasSocket]
  · simp [hstage]
  · rw [idleCloses_other _ (by simp)]
    exact hreceived

theorem Sound.step (h : s.Sound) {e : Event} (hstep : s.step e = some s') : s'.Sound := by
  cases e with
  | construct sockfd =>
      simp only [State.step, Option.ite_none_right_eq_some] at hstep
      obtain ⟨hstage, hstep⟩ := hstep
      obtain ⟨kernel, hreceive, hstep⟩ := Option.bind_eq_some_iff.mp hstep
      obtain rfl := Option.some.inj hstep
      exact h.construct hstage hreceive
  | openIdle result =>
      simp only [State.step, Option.ite_none_right_eq_some] at hstep
      obtain ⟨hstage, hstep⟩ := hstep
      obtain ⟨kernel, hresult, hstep⟩ := Option.bind_eq_some_iff.mp hstep
      obtain rfl := Option.some.inj hstep
      refine h.setIdle hresult ?_ rfl (not_accepted_iff ?_ (by simp)) ?_ <;> simp [hstage, Stage.holdsIdle,
        Stage.hasSocket]
  | accept4 result errno =>
      simp only [State.step, Option.ite_none_right_eq_some] at hstep
      obtain ⟨hstage, hstep⟩ := hstep
      split at hstep
      · split at hstep
        · obtain rfl := Option.some.inj hstep
          refine h.move (not_accepted_iff ?_ (by simp)) ?_ ?_ <;> simp [hstage, Stage.holdsIdle,
            Stage.hasSocket]
        · split at hstep
          · obtain rfl := Option.some.inj hstep
            refine h.move (not_accepted_iff ?_ (by simp)) ?_ ?_ <;> simp [hstage, Stage.holdsIdle,
              Stage.hasSocket]
          · -- an error that only ends this call of `handleRead`
            obtain rfl := Option.some.inj hstep
            exact h
      · obtain ⟨kernel, hreceive, hstep⟩ := Option.bind_eq_some_iff.mp hstep
        obtain rfl := Option.some.inj hstep
        exact h.accept4 hstage hreceive
  | newConnection poll =>
      simp only [State.step] at hstep
      split at hstep
      · rename_i connfd file hstage
        obtain rfl := Option.some.inj hstep
        split
        · exact h.newConnection hstage poll
        · exact h.refuse hstage
      · cases hstep
  | closeIdle =>
      simp only [State.step] at hstep
      split at hstep
      · rename_i hstage
        obtain rfl := Option.some.inj hstep
        refine h.closeIdle ?_ rfl (not_accepted_iff ?_ (by simp)) ?_ <;> simp [hstage, Stage.holdsIdle,
          Stage.hasSocket]
      · rename_i hstage
        obtain rfl := Option.some.inj hstep
        refine h.closeIdle ?_ rfl (not_accepted_iff ?_ (by simp)) ?_ <;> simp [hstage, Stage.holdsIdle,
          Stage.hasSocket]
      · cases hstep
  | accept result | «open» result =>
      simp only [State.step, Option.ite_none_right_eq_some] at hstep
      obtain ⟨hstage, hstep⟩ := hstep
      obtain ⟨kernel, hresult, hstep⟩ := Option.bind_eq_some_iff.mp hstep
      obtain rfl := Option.some.inj hstep
      refine h.setIdle hresult ?_ rfl (not_accepted_iff ?_ (by simp)) ?_ <;> simp [hstage, Stage.holdsIdle,
        Stage.hasSocket]
  | destroyConnection i =>
      simp only [State.step] at hstep
      obtain ⟨c, hc, hstep⟩ := Option.bind_eq_some_iff.mp hstep
      simp only [Option.ite_none_right_eq_some] at hstep
      obtain ⟨⟨halive, -⟩, hstep⟩ := hstep
      obtain rfl := Option.some.inj hstep
      exact h.destroyConnection hc halive
  | destroy =>
      simp only [State.step, Option.ite_none_right_eq_some, Option.some.injEq] at hstep
      obtain ⟨hstage, rfl⟩ := hstep
      refine h.closeIdle ?_ rfl (not_accepted_iff ?_ (by simp)) ?_ <;> simp [hstage, Stage.holdsIdle,
        Stage.hasSocket]
  | destroySocket =>
      simp only [State.step, Option.ite_none_right_eq_some, Option.some.injEq] at hstep
      obtain ⟨hstage, rfl⟩ := hstep
      exact h.destroySocket hstage
  | elsewhereOpens fd =>
      simp only [State.step, Option.ite_none_right_eq_some] at hstep
      obtain ⟨-, hstep⟩ := hstep
      obtain ⟨kernel, hreceive, hstep⟩ := Option.bind_eq_some_iff.mp hstep
      obtain rfl := Option.some.inj hstep
      exact h.receive hreceive rfl
  | elsewhereCloses fd =>
      simp only [State.step, Option.ite_none_right_eq_some, Option.some.injEq] at hstep
      obtain ⟨⟨-, howner⟩, rfl⟩ := hstep
      obtain ⟨o, ho, howner⟩ := Option.map_eq_some_iff.mp howner
      refine h.close rfl (Or.inr ⟨o.file, ?_⟩) (fun _ _ => Iff.rfl) (fun hhas => ⟨hhas, by simp⟩)
        (fun hholds => ⟨hholds, by simp⟩) ?_
      · rw [Descriptors.Owns, ho, ← howner]
      · rw [idleCloses_other _ (by simp)]
        exact h.received

theorem reachable_sound (h : machine.Reachable s) : s.Sound := by
  refine h.invariant ?_ ?_
  · rintro s ⟨callback, rfl⟩
    exact new_sound callback
  · intro s e s' _ hsound _ hstep
    exact hsound.step hstep

/-- **Conserved descriptors.** What `accept4` returned is in hand, or has been refused, or was given to a
    connection, and exactly one of these; it has been closed once when it was refused, and once for the
    destruction of its connection. Of the values that `idleFd_` received, each has been closed once, in
    that order, but for the last one while `idleFd_` holds it. Every close but `close(-1)` finds an open
    descriptor that is the closer's own, and a connection that has not been destroyed owns the one it was
    given. -/
structure Conserved (s : State) : Prop where
  accepted : ∀ file ∈ s.accepted, (if s.stage.hand = some file then 1 else 0) +
    refusals s.kernel.closes file + connectionsOf s.connections file = 1
  closed : ∀ file ∈ s.accepted, closedTimes s.kernel.closes file =
    refusals s.kernel.closes file + destroyedOf s.connections file
  idle : s.received = idleCloses s.kernel.closes ++ if s.stage.holdsIdle then [s.idleFd_] else []
  rightful : ∀ c ∈ s.kernel.closes, c.fd = -1 ∨ ∃ file, c.found = some ⟨file, c.closer⟩
  owned : ∀ i c, s.connections[i]? = some c → c.alive = true →
    s.kernel.Owns (.connection i) c.sockfd_ c.file

/-- **No descriptor is lost, and none is closed twice**, whatever the system calls return. -/
theorem accepted_conserved (h : machine.Reachable s) : s.Conserved := by
  have hsound := reachable_sound h
  refine ⟨fun file hfile => ?_, hsound.accounts.closed, hsound.received,
    hsound.accounts.rightful, fun i c => hsound.connections⟩
  rw [hsound.accounts.once file]
  exact List.count_eq_one_of_mem hsound.accounts.nodup hfile

/-- Three connections arrive while descriptors run out; other code takes the number of the reserve. -/
def exhaustion : List Event :=
  [.construct 3, .openIdle 4, .accept4 5 .EAGAIN, .newConnection 1, .accept4 (-1) .EMFILE, .closeIdle,
    .elsewhereOpens 4, .accept (-1), .closeIdle, .open (-1), .destroyConnection 0,
    .accept4 5 .EAGAIN, .newConnection (-1), .accept4 (-1) .EMFILE, .closeIdle, .accept 5, .closeIdle,
    .open 5]

theorem accepted_conserved_exhaustion :
    ∃ s, machine.run (State.new true) exhaustion = some s ∧ s.accepted = [2, 4] ∧
      s.received = [4, -1, -1, 5, 5] ∧ s.kernel.closes.map Close.fd = [4, -1, 5, 5, -1, 5] ∧
      s.Conserved := by
  have hrun : ((machine.run (State.new true) exhaustion).map
      fun s => (s.accepted, s.received, s.kernel.closes.map Close.fd)) =
      some ([2, 4], [4, -1, -1, 5, 5], [4, -1, 5, 5, -1, 5]) := by
    decide
  obtain ⟨s, hs, hvalues⟩ := Option.map_eq_some_iff.mp hrun
  simp only [Prod.mk.injEq] at hvalues
  obtain ⟨haccepted, hreceived, hcloses⟩ := hvalues
  exact ⟨s, hs, haccepted, hreceived, hcloses,
    accepted_conserved (Machine.run_reachable ⟨true, rfl⟩ hs)⟩

end State

end Acceptor

end Simplev
