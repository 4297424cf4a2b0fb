import Simplev.Net.BufferRefinement
import Simplev.Net.Channel
import Simplev.Net.EventLoop

/-!
# `Net.TcpConnection` — one connection (`TcpConnection.h`, `TcpConnection.cc`)

Each member function takes the connection and the result of the system call it makes, if it makes
one, and returns the connection it leaves with what it did on the outside, in order (`Action`): writes
to the socket, functors queued, callbacks called. It throws where `Buffer::append` does.

- **Sending.** `sendInLoop` first tries the socket (`writeDirectly`), then buffers the rest.
- **Closing.** `handleClose` ends in `closeCallback_`, whose effect is the owner's; `connectDestroyed`
  calls user code in its middle, so its last line is a function of its own (`removeChannel`).
- **Spec lemmas.** One per function that touches a buffer. They name the bytes that moved, and the
  later modules use them instead of the definitions.
- **Logging.** A record goes out through `fwrite`, which may change `errno`. `sendInLoop` reads `errno`
  once before and once after its `LOG_SYSERR`, so a failed write comes with both values. What the other
  functions log changes nothing they do; `handleError` only logs.
-/

namespace Simplev

open Foundation

/-- A `std::string`: its length is bounded. -/
structure Message where
  bytes : List Byte
  fits : bytes.length ≤ maxSize
deriving DecidableEq

inductive Errno where
  | EWOULDBLOCK
  | EPIPE
  | ECONNRESET
  | other (code : Nat)
deriving DecidableEq, Repr

/-- `errno == EPIPE || errno == ECONNRESET` -/
def Errno.peerGone : Errno → Bool
  | EPIPE => true
  | ECONNRESET => true
  | _ => false

/-- What `::write` returned: a count, or `-1` with `errno`; `afterLog` is what `errno` holds once the
    failure has been logged. -/
inductive Write where
  | wrote (n : Nat)
  | failed (errno afterLog : Errno)
deriving DecidableEq, Repr

namespace Write

/-- `::write` takes no more than it is offered. -/
def Fits (w : Write) (len : Nat) : Prop :=
  match w with
  | wrote n => n ≤ len
  | failed _ _ => True

instance : (w : Write) → (len : Nat) → Decidable (w.Fits len)
  | wrote n, len => inferInstanceAs (Decidable (n ≤ len))
  | failed _ _, _ => inferInstanceAs (Decidable True)

/-- The `faultError` of `sendInLoop`. `EWOULDBLOCK` is not logged; behind the log of any other failure
    `errno` is read again. -/
def isFault : Write → Bool
  | wrote _ => false
  | failed errno afterLog => errno != .EWOULDBLOCK && afterLog.peerGone

/-- The write itself failed with `EPIPE` or `ECONNRESET`. -/
def peerGone : Write → Bool
  | wrote _ => false
  | failed errno _ => errno.peerGone

/-- The part of the offered bytes the socket accepted. -/
def accepted (w : Write) (offered : List Byte) : List Byte :=
  match w with
  | wrote n => offered.take n
  | failed _ _ => []

end Write

namespace TcpConnection

inductive StateE where
  | kConnecting
  | kConnected
  | kDisconnecting
  | kDisconnected
deriving DecidableEq, Repr

/-- What is bound into a functor for this connection. `sendInLoop` also names the thread that called
    `send`. -/
inductive Functor where
  | connectEstablished
  | connectDestroyed
  | sendInLoop (caller : Thread) (message : Message)
  | shutdownInLoop
  | writeCompleteCallback
  | highWaterMarkCallback (backlog : Nat)
deriving DecidableEq

/-- A call of user code. -/
inductive Callback where
  /-- `connectionCallback_`, which finds `connected()` as given. -/
  | connection (connected : Bool)
  /-- `messageCallback_`, which finds `readable` in `inputBuffer_`; `arrived` came with this read. -/
  | message (arrived readable : List Byte)
  | writeComplete
  | highWaterMark (backlog : Nat)
deriving DecidableEq, Repr

/-- What a member function does on the outside, with the three points of the send path that a log
    would show: a call accepted by `state_ == kConnected`, and a message taken by `sendInLoop`. -/
inductive Action where
  /-- `send()` found `kConnected`. -/
  | accept (caller : Thread) (message : Message)
  /-- `sendInLoop` ran on the message; `direct` is the result of its own write, if it made one. -/
  | take (caller : Thread) (message : Message) (direct : Option Write)
  /-- `shutdown()` found `kConnected`. -/
  | disconnect
  | write (data : List Byte) (result : Write)
  | shutdownWrite
  | queueInLoop (f : Functor)
  | callback (cb : Callback)
  | closeCallback
deriving DecidableEq

end TcpConnection

open TcpConnection in
structure TcpConnection where
  state_ : StateE
  channel_ : Channel
  inputBuffer_ : Buffer
  outputBuffer_ : Buffer
  highWaterMark_ : Nat
  /-- `writeCompleteCallback_` is set. -/
  writeCompleteCallback_ : Bool
  /-- `highWaterMarkCallback_` is set. -/
  highWaterMarkCallback_ : Bool
deriving DecidableEq, Repr

namespace TcpConnection

/-- The constructor, on the descriptor `sockfd`. -/
def new (sockfd : Nat) (writeComplete : Bool) : TcpConnection where
  state_ := .kConnecting
  channel_ := Channel.new sockfd
  inputBuffer_ := Buffer.new
  outputBuffer_ := Buffer.new
  highWaterMark_ := 64 * 1024 * 1024
  writeCompleteCallback_ := writeComplete
  highWaterMarkCallback_ := false

def connected (c : TcpConnection) : Bool := c.state_ = .kConnected

/-- What a member function returns. -/
abbrev Result := Outcome (TcpConnection × List Action)

/-! ## Opening and closing -/

def connectEstablished (c : TcpConnection) : Result := do
  Outcome.assert (c.state_ = .kConnecting) "state_ == kConnecting"
  let c := { c with state_ := .kConnected, channel_ := c.channel_.enableReading }
  return (c, [.callback (.connection c.connected)])

def handleClose (c : TcpConnection) : Result := do
  Outcome.assert (c.state_ = .kConnected ∨ c.state_ = .kDisconnecting)
    "state_ == kConnected || state_ == kDisconnecting"
  return ({ c with channel_ := c.channel_.disableAll }, [.closeCallback])

/-- `connectDestroyed` up to its call of `connectionCallback_`. -/
def connectDestroyed (c : TcpConnection) : Result := do
  Outcome.assert (c.state_ = .kConnected ∨ c.state_ = .kDisconnecting)
    "state_ == kConnected || state_ == kDisconnecting"
  let c := { c with state_ := .kDisconnected, channel_ := c.channel_.disableAll }
  return (c, [.callback (.connection c.connected)])

/-- The last line of `connectDestroyed`, after `connectionCallback_` returned. -/
def removeChannel (c : TcpConnection) : Result := do
  let channel ← c.channel_.remove
  return ({ c with channel_ := channel }, [])

/-! ## Events -/

def handleRead (c : TcpConnection) (r : Buffer.Readv) : Result := do
  let (n, _, inputBuffer) ← c.inputBuffer_.readFd r
  let c := { c with inputBuffer_ := inputBuffer }
  match n, r with
  | some 0, _ => c.handleClose
  | some (_ + 1), .data bytes => return (c, [.callback (.message bytes inputBuffer.readable)])
  | _, _ => return (c, [])

/-- `shutdownInLoop` changes nothing in the connection. -/
def shutdownInLoop (c : TcpConnection) : List Action :=
  if !c.channel_.isWriting then [.shutdownWrite] else []

/-- `loop_->queueInLoop(boost::bind(writeCompleteCallback_, shared_from_this()))`, if it is set. -/
def notifyWriteComplete (c : TcpConnection) : List Action :=
  if c.writeCompleteCallback_ then [.queueInLoop .writeCompleteCallback] else []

def handleWrite (c : TcpConnection) (w : Write) : Result :=
  if c.channel_.isWriting then
    let written : List Action := [.write c.outputBuffer_.readable w]
    match w with
    | .wrote (n + 1) => do
      let outputBuffer ← c.outputBuffer_.retrieve (n + 1)
      let c := { c with outputBuffer_ := outputBuffer }
      if outputBuffer.readableBytes = 0 then
        let c := { c with channel_ := c.channel_.disableWriting }
        let closing := if c.state_ = .kDisconnecting then c.shutdownInLoop else []
        return (c, written ++ c.notifyWriteComplete ++ closing)
      else
        return (c, written)
    | _ => return (c, written)
  else
    -- the read callback of the same event has closed the connection: no more writing
    return (c, [])

/-! ## Sending -/

/-- The locals of `sendInLoop` after its first part, and what that part did. -/
structure Direct where
  numWrite : Int
  remaining : Nat
  faultError : Bool
  write : Option Write
  actions : List Action
deriving DecidableEq

/-- If nothing is in the output buffer, try writing directly. -/
def writeDirectly (c : TcpConnection) (message : Message) (w : Write) : Direct :=
  if !c.channel_.isWriting ∧ c.outputBuffer_.readableBytes = 0 then
    match w with
    | .wrote n =>
      let remaining := sizeSub message.bytes.length n
      { numWrite := n
        remaining := remaining
        faultError := false
        write := some w
        actions := .write message.bytes w :: if remaining = 0 then c.notifyWriteComplete else [] }
    | .failed _ _ =>
      { numWrite := 0
        remaining := message.bytes.length
        faultError := w.isFault
        write := some w
        actions := [.write message.bytes w] }
  else
    { numWrite := 0
      remaining := message.bytes.length
      faultError := false
      write := none
      actions := [] }

/-- The high-water functor `sendInLoop` queues before it buffers `remaining` bytes. -/
def notifyHighWaterMark (c : TcpConnection) (remaining : Nat) : List Action :=
  let oldLen := c.outputBuffer_.readableBytes
  if c.highWaterMark_ ≤ sizeAdd oldLen remaining ∧ oldLen < c.highWaterMark_ ∧
      c.highWaterMarkCallback_ = true then
    [.queueInLoop (.highWaterMarkCallback (sizeAdd oldLen remaining))]
  else []

def sendInLoop (c : TcpConnection) (caller : Thread) (message : Message) (w : Write) : Result := do
  let d := c.writeDirectly message w
  Outcome.assert (0 ≤ d.numWrite) "numWrite >= 0"
  if !d.faultError ∧ 0 < d.remaining then
    let notified := c.notifyHighWaterMark d.remaining
    let data := (message.bytes.drop d.numWrite.toNat).take d.remaining
    let outputBuffer ← c.outputBuffer_.append data
    let channel := if !c.channel_.isWriting then c.channel_.enableWriting else c.channel_
    return ({ c with outputBuffer_ := outputBuffer, channel_ := channel },
      .take caller message d.write :: d.actions ++ notified)
  else
    return (c, .take caller message d.write :: d.actions)

/-- `send` from `caller`; `w` is the result of the direct write, when it runs `sendInLoop` itself. -/
def send (c : TcpConnection) (caller : Thread) (message : Message) (w : Write) : Result :=
  if c.state_ = .kConnected then
    match caller with
    | .loop => do
      let (c, actions) ← c.sendInLoop caller message w
      return (c, .accept caller message :: actions)
    | .other _ =>
      return (c, [.accept caller message, .queueInLoop (.sendInLoop caller message)])
  else
    return (c, [])

def shutdown (c : TcpConnection) (caller : Thread) : Result :=
  if c.state_ = .kConnected then
    let c := { c with state_ := .kDisconnecting }
    match caller with
    | .loop => return (c, .disconnect :: c.shutdownInLoop)
    | .other _ => return (c, [.disconnect, .queueInLoop .shutdownInLoop])
  else
    return (c, [])

/-- Running a functor; `w` is the result of the write it may make. -/
def Functor.run (f : Functor) (c : TcpConnection) (w : Write) : Result :=
  match f with
  | .connectEstablished => c.connectEstablished
  | .connectDestroyed => c.connectDestroyed
  | .sendInLoop caller message => c.sendInLoop caller message w
  | .shutdownInLoop => return (c, c.shutdownInLoop)
  | .writeCompleteCallback => return (c, [.callback .writeComplete])
  | .highWaterMarkCallback backlog => return (c, [.callback (.highWaterMark backlog)])

/-- Running an event callback of the channel, with the results of the calls it may make. -/
def handleEvent (c : TcpConnection) (cb : EventCallback) (r : Buffer.Readv) (w : Write) : Result :=
  match cb with
  | .errorCallback => return (c, [])
  | .readCallback => c.handleRead r
  | .writeCallback => c.handleWrite w

end TcpConnection

end Simplev
