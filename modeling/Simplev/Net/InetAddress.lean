import Mathlib.Data.List.Basic
import Mathlib.Data.List.TakeWhile
import Simplev.Base.Convert
import Simplev.Foundation.Outcome

/-!
# `Net.InetAddress` — addresses and their texts (`InetAddress.cc`, `SocketsOps.cc`)

An `InetAddress` is made from a text and a port, and `toIpPort` writes a text again, into 32 bytes. In between
everything is in network byte order: `sin_addr` and `sin_port` are kept as the bytes in memory.

`inet_ntop`, `inet_pton` and `snprintf` are libc's. Whether `inet_pton` takes a number with a zero in front is
left open (`leadingZeros`), as the manuals and the implementations disagree.

## Contents
- **The model.** `sockets`, `InetAddress`, and `connName`, the name of a connection of a `TcpClient`.
- **Texts.** `toIpPort_eq`: the 32 bytes hold the whole text; `inet_pton` reads an address back.
- **Addresses.** The round trip both ways, and the names of the connections.
-/

namespace Simplev

open Foundation InPlace

/-- `in_addr`: the bytes of `s_addr`. -/
structure InAddr where
  b0 : UInt8
  b1 : UInt8
  b2 : UInt8
  b3 : UInt8
deriving DecidableEq, Repr

/-- A `uint16_t` in network byte order. -/
structure Net16 where
  high : UInt8
  low : UInt8
deriving DecidableEq, Repr

structure SockAddrIn where
  sin_family : Nat
  sin_port : Net16
  sin_addr : InAddr
deriving DecidableEq, Repr

structure InetAddress where
  addr_ : SockAddrIn
deriving DecidableEq, Repr

namespace sockets

def AF_INET : Nat := 2

def INET_ADDRSTRLEN : Nat := 16

def dot : UInt8 := Char.toUInt8 '.'

def colon : UInt8 := Char.toUInt8 ':'

def hash : UInt8 := Char.toUInt8 '#'

def hostToNetwork16 (host16 : UInt16) : Net16 :=
  ⟨UInt8.ofNat (host16.toNat / 256), UInt8.ofNat (host16.toNat % 256)⟩

def networkToHost16 (net16 : Net16) : UInt16 :=
  UInt16.ofNat (256 * net16.high.toNat + net16.low.toNat)

/-- What `bzero` leaves. -/
def zeroed : SockAddrIn := ⟨0, ⟨0, 0⟩, ⟨0, 0, 0, 0⟩⟩

/-! ## libc -/

/-- What a pointer to the characters stands for. -/
def cString (text : List UInt8) : List UInt8 := text.takeWhile (· ≠ 0)

/-- The string that `snprintf` leaves in a buffer of `size` bytes. -/
def snprintf (size : Nat) (text : List UInt8) : List UInt8 := text.take (size - 1)

def octets (addr : InAddr) : List (List UInt8) :=
  [addr.b0, addr.b1, addr.b2, addr.b3].map fun b => numeral 10 b.toNat

/-- The text of an address. -/
def dotted (addr : InAddr) : List UInt8 := [dot].intercalate (octets addr)

/-- `inet_ntop(AF_INET, ..)`: there is room, or the buffer stays as it is. -/
def inet_ntop (addr : InAddr) (buf : List UInt8) (size : Nat) : List UInt8 :=
  if (dotted addr).length < size then dotted addr else buf

/-- One number of a dotted text: one to three digits, at most 255. -/
def octet (leadingZeros : Bool) (text : List UInt8) : Option UInt8 :=
  if text.length ≤ 3 ∧ (leadingZeros = true ∨ (text.head? = some zeroChar → text = [zeroChar])) then
    (parseNat 10 text).bind fun n => if n ≤ 255 then some (UInt8.ofNat n) else none
  else none

/-- `inet_pton(AF_INET, ..)` -/
def inet_pton (leadingZeros : Bool) (text : List UInt8) : Option InAddr :=
  match (text.splitOn dot).map (octet leadingZeros) with
  | [some b0, some b1, some b2, some b3] => some ⟨b0, b1, b2, b3⟩
  | _ => none

/-! ## `SocketsOps.cc` -/

def fromHostPort (leadingZeros : Bool) (ip : List UInt8) (port : UInt16) (addr : SockAddrIn) : SockAddrIn :=
  let addr := { addr with sin_family := AF_INET, sin_port := hostToNetwork16 port }
  match inet_pton leadingZeros ip with
  | some sin_addr => { addr with sin_addr := sin_addr }
  | none => addr

def toIpPort (buf : List UInt8) (size : Nat) (addr : SockAddrIn) : Outcome (List UInt8) := do
  Outcome.assert (INET_ADDRSTRLEN ≤ size) "size >= INET_ADDRSTRLEN"
  let buf := inet_ntop addr.sin_addr buf size
  let end_ := buf.length
  let port := networkToHost16 addr.sin_port
  Outcome.assert (end_ < size) "size > end"
  pure (buf ++ snprintf (size - end_) (colon :: numeral 10 port.toNat))

/-- A call that fails (`none`) leaves the zeros. -/
def getAddr (result : Option SockAddrIn) : SockAddrIn := result.getD zeroed

def getLocalAddr (getsockname : Option SockAddrIn) : SockAddrIn := getAddr getsockname

def getPeerAddr (getpeername : Option SockAddrIn) : SockAddrIn := getAddr getpeername

def isSelfConnect (getsockname getpeername : Option SockAddrIn) : Bool :=
  let localaddr := getLocalAddr getsockname
  let peeraddr := getPeerAddr getpeername
  localaddr.sin_port = peeraddr.sin_port && localaddr.sin_addr = peeraddr.sin_addr

end sockets

open sockets

namespace InetAddress

def ofPort (port : UInt16) : InetAddress :=
  -- `INADDR_ANY` is zero in either byte order
  ⟨{ zeroed with sin_family := AF_INET, sin_port := hostToNetwork16 port }⟩

def ofIpPort (leadingZeros : Bool) (ip : List UInt8) (port : UInt16) : InetAddress :=
  ⟨fromHostPort leadingZeros (cString ip) port zeroed⟩

/-- `buf` is what happens to be in the array. -/
def toIpPort (x : InetAddress) (buf : List UInt8) : Outcome (List UInt8) := sockets.toIpPort buf 32 x.addr_

/-- The text that `toIpPort` writes. -/
def text (x : InetAddress) : List UInt8 :=
  dotted x.addr_.sin_addr ++ colon :: numeral 10 (networkToHost16 x.addr_.sin_port).toNat

end InetAddress

/-- The name that `TcpClient::newConnection` gives. -/
def TcpClient.connName (peerAddr : InetAddress) (nextConnId_ : Nat) (buf : List UInt8) :
    Outcome (List UInt8) := do
  let ipPort ← peerAddr.toIpPort buf
  pure (snprintf 32 (colon :: ipPort ++ hash :: numeral 10 nextConnId_))

/-! ## The texts -/

namespace sockets

variable {leadingZeros : Bool} {n : Nat} {c : UInt8} {addr : InAddr} {buf : List UInt8} {port : UInt16}

theorem networkToHost16_hostToNetwork16 : networkToHost16 (hostToNetwork16 port) = port := by
  have hport := port.toNat_lt
  apply UInt16.toNat_inj.mp
  simp only [networkToHost16, hostToNetwork16, UInt16.toNat_ofNat', UInt8.toNat_ofNat']
  omega

theorem hostToNetwork16_networkToHost16 (net16 : Net16) : hostToNetwork16 (networkToHost16 net16) = net16 := by
  obtain ⟨high, low⟩ := net16
  have hhigh := high.toNat_lt
  have hlow := low.toNat_lt
  have hvalue : (networkToHost16 ⟨high, low⟩).toNat = 256 * high.toNat + low.toNat := by
    simp only [networkToHost16, UInt16.toNat_ofNat']
    omega
  simp only [hostToNetwork16, hvalue, Net16.mk.injEq]
  refine ⟨UInt8.toNat_inj.mp ?_, UInt8.toNat_inj.mp ?_⟩
  · rw [UInt8.toNat_ofNat']
    omega
  · rw [UInt8.toNat_ofNat']
    omega

/-- A number is read back, whether or not zeros may stand in front. -/
theorem octet_numeral (b : UInt8) : octet leadingZeros (numeral 10 b.toNat) = some b := by
  have hb := b.toNat_lt
  unfold octet
  rw [if_pos ⟨length_numeral_le (by decide) (by decide) (by omega), .inr (numeral_leading (by decide) (by decide))⟩,
    parseNat_numeral (by decide) (by decide), Option.bind_some, if_pos (by omega), UInt8.ofNat_toNat]

theorem splitOn_dotted : (dotted addr).splitOn dot = octets addr := by
  refine List.splitOn_intercalate dot ?_ (by simp [octets])
  intro text htext
  obtain ⟨b, -, rfl⟩ := List.mem_map.mp htext
  exact not_mem_numeral (by decide) (by decide) rfl

theorem inet_pton_dotted (leadingZeros : Bool) (addr : InAddr) :
    inet_pton leadingZeros (dotted addr) = some addr := by
  unfold inet_pton
  rw [splitOn_dotted]
  simp only [octets, List.map_cons, List.map_nil, octet_numeral]

theorem dotted_inj {other : InAddr} (h : dotted addr = dotted other) : addr = other := by
  have hread := inet_pton_dotted true addr
  rw [h, inet_pton_dotted] at hread
  exact (Option.some.inj hread).symm

theorem length_dotted_le (addr : InAddr) : (dotted addr).length ≤ 15 := by
  have hoctet : ∀ b : UInt8, (numeral 10 b.toNat).length ≤ 3 := by
    intro b
    have hb := b.toNat_lt
    exact length_numeral_le (by decide) (by decide) (by omega)
  have h0 := hoctet addr.b0
  have h1 := hoctet addr.b1
  have h2 := hoctet addr.b2
  have h3 := hoctet addr.b3
  simp only [dotted, octets, List.intercalate, List.map_cons, List.map_nil, List.intersperse,
    List.flatten_cons, List.flatten_nil, List.length_append, List.length_cons, List.length_nil]
  omega

/-- Neither digits nor dots. -/
theorem not_mem_dotted (hc : digitValue c = none) (hdot : c ≠ dot) : c ∉ dotted addr := by
  have hoctet : ∀ b : UInt8, c ∉ numeral 10 b.toNat := fun _ => not_mem_numeral (by decide) (by decide) hc
  simp [dotted, octets, List.intercalate, List.intersperse, hoctet, hdot]

/-- A terminator ends no address. -/
theorem cString_dotted : cString (dotted addr) = dotted addr := by
  refine List.takeWhile_eq_self_iff.mpr fun c hc => ?_
  simp only [ne_eq, decide_not, Bool.not_eq_eq_eq_not, Bool.not_true, decide_eq_false_iff_not]
  rintro rfl
  exact not_mem_dotted (by decide) (by decide) hc

/-- An address and a port: the colon is where the one ends. -/
theorem ipPort_inj {ip ip' : List UInt8} {m : Nat} (hip : colon ∉ ip)
    (h : ip ++ colon :: numeral 10 m = ip' ++ colon :: numeral 10 n) : ip = ip' ∧ m = n := by
  obtain ⟨rfl, -, hport⟩ :=
    (List.append_cons_inj_of_notMem hip (not_mem_numeral (by decide) (by decide) (by decide))).mp h
  exact ⟨rfl, numeral_inj (by decide) (by decide) hport⟩

end sockets

/-! ## Addresses -/

namespace InetAddress

variable {leadingZeros : Bool} {buf : List UInt8}

theorem text_length_le (x : InetAddress) : x.text.length ≤ 21 := by
  have hdotted := length_dotted_le x.addr_.sin_addr
  have hlt := (networkToHost16 x.addr_.sin_port).toNat_lt
  have hport : (numeral 10 (networkToHost16 x.addr_.sin_port).toNat).length ≤ 5 :=
    length_numeral_le (by decide) (by decide) (by omega)
  rw [text, List.length_append, List.length_cons]
  omega

/-- The asserts hold, and the array holds the whole text. -/
theorem toIpPort_eq (x : InetAddress) : x.toIpPort buf = .ok x.text [] := by
  have hdotted := length_dotted_le x.addr_.sin_addr
  have hlength := text_length_le x
  rw [text, List.length_append] at hlength
  have htext : inet_ntop x.addr_.sin_addr buf 32 = dotted x.addr_.sin_addr := if_pos (by omega)
  unfold InetAddress.toIpPort sockets.toIpPort
  simp only [htext]
  rw [Outcome.assert_true (by decide), Outcome.ok_nil_bind, Outcome.assert_true (by omega),
    Outcome.ok_nil_bind, snprintf, List.take_of_length_le (by omega)]
  rfl

/-- What `inet_pton` reads, or nothing. -/
theorem ofIpPort_of_some {ip : List UInt8} {port : UInt16} {addr : InAddr}
    (h : inet_pton leadingZeros (cString ip) = some addr) :
    ofIpPort leadingZeros ip port = ⟨⟨AF_INET, hostToNetwork16 port, addr⟩⟩ := by
  unfold ofIpPort fromHostPort
  rw [h]

theorem ofIpPort_of_none {ip : List UInt8} {port : UInt16} (h : inet_pton leadingZeros (cString ip) = none) :
    ofIpPort leadingZeros ip port = ofPort port := by
  unfold ofIpPort fromHostPort
  rw [h]
  rfl

/-- The text tells the address and the port. -/
theorem text_inj {x y : InetAddress} (h : x.text = y.text) :
    x.addr_.sin_addr = y.addr_.sin_addr ∧ x.addr_.sin_port = y.addr_.sin_port := by
  obtain ⟨hdotted, hport⟩ := ipPort_inj (not_mem_dotted (by decide) (by decide)) h
  have hnet := congrArg hostToNetwork16 (UInt16.toNat_inj.mp hport)
  rw [hostToNetwork16_networkToHost16, hostToNetwork16_networkToHost16] at hnet
  exact ⟨dotted_inj hdotted, hnet⟩

end InetAddress

open InetAddress

/-- **Addresses and their texts.** The text of an address falls apart at its colon into an ip and a port that make
    the same address again. The text of an address that was made from an ip and a port is these two if and
    only if the ip is what `inet_ntop` writes for some address; an ip that `inet_pton` does not take stands for
    `INADDR_ANY`. A connection is taken for one to itself if and only if its two ends have the same text. -/
theorem addresses_are_texts (leadingZeros : Bool) (buf : List UInt8) :
    (∀ x : InetAddress, ∃ ip port, x.toIpPort buf = .ok (ip ++ colon :: numeral 10 port) [] ∧ colon ∉ ip ∧
      ofIpPort leadingZeros ip (UInt16.ofNat port) = ⟨{ x.addr_ with sin_family := AF_INET }⟩) ∧
    (∀ ip port,
      ((ofIpPort leadingZeros ip port).toIpPort buf = .ok (cString ip ++ colon :: numeral 10 port.toNat) [] ↔
        ∃ addr, cString ip = dotted addr) ∧
      (inet_pton leadingZeros (cString ip) = none →
        (ofIpPort leadingZeros ip port).toIpPort buf = (ofPort port).toIpPort buf)) ∧
    ∀ name peer, isSelfConnect name peer = true ↔
      (InetAddress.mk (getLocalAddr name)).toIpPort buf = (InetAddress.mk (getPeerAddr peer)).toIpPort buf := by
  refine ⟨fun x => ?_, fun ip port => ⟨⟨fun h => ?_, ?_⟩, fun h => ?_⟩,
    fun name peer => ⟨fun h => ?_, fun h => ?_⟩⟩
  · refine ⟨dotted x.addr_.sin_addr, _, toIpPort_eq x, not_mem_dotted (by decide) (by decide), ?_⟩
    rw [ofIpPort_of_some (by rw [cString_dotted, inet_pton_dotted]), UInt16.ofNat_toNat,
      hostToNetwork16_networkToHost16]
  · rw [toIpPort_eq] at h
    injection h with htext
    refine ⟨_, (ipPort_inj (not_mem_dotted (by decide) (by decide)) htext).1.symm⟩
  · rintro ⟨addr, haddr⟩
    have hread : inet_pton leadingZeros (cString ip) = some addr := by rw [haddr, inet_pton_dotted]
    rw [toIpPort_eq, ofIpPort_of_some hread, text, networkToHost16_hostToNetwork16, haddr]
  · rw [ofIpPort_of_none h]
  · obtain ⟨hport, haddr⟩ := Bool.and_eq_true_iff.mp h
    rw [toIpPort_eq, toIpPort_eq, text, text, of_decide_eq_true hport, of_decide_eq_true haddr]
  · rw [toIpPort_eq, toIpPort_eq] at h
    injection h with htext
    obtain ⟨haddr, hport⟩ := text_inj htext
    exact Bool.and_eq_true_iff.mpr ⟨decide_eq_true hport, decide_eq_true haddr⟩

/-- A server at "localhost" listens everywhere. -/
theorem addresses_are_texts_localhost :
    (ofIpPort false (['l', 'o', 'c', 'a', 'l', 'h', 'o', 's', 't'].map Char.toUInt8) 80).toIpPort [] =
      (ofPort 80).toIpPort [] :=
  ((addresses_are_texts false []).2.1 _ 80).2 (by decide +kernel)

namespace TcpClient

variable {buf : List UInt8} {i j : Nat}

theorem connName_eq (peerAddr : InetAddress) (hi : i < 100000000) :
    connName peerAddr i buf = .ok (colon :: peerAddr.text ++ hash :: numeral 10 i) [] := by
  have hlength := text_length_le peerAddr
  have hid : (numeral 10 i).length ≤ 8 := length_numeral_le (by decide) (by decide) hi
  unfold connName
  rw [toIpPort_eq, Outcome.ok_nil_bind, snprintf, List.take_of_length_le]
  · rfl
  · simp only [List.length_append, List.length_cons]
    omega

theorem hash_not_mem (x : InetAddress) : hash ∉ colon :: x.text := by
  rw [text, List.mem_cons, List.mem_append, List.mem_cons, not_or, not_or, not_or]
  exact ⟨by decide, not_mem_dotted (by decide) (by decide), by decide, not_mem_numeral (by decide) (by decide) (by decide)⟩

/-- **The names of a client's connections.** The first 99,999,999 of them are whole, and no two are alike. -/
theorem connName_inj {x y : InetAddress} (hi : i < 100000000) (hj : j < 100000000)
    (h : connName x i buf = connName y j buf) : x.text = y.text ∧ i = j := by
  rw [connName_eq x hi, connName_eq y hj] at h
  injection h with hname
  obtain ⟨hcons, -, hid⟩ :=
    (List.append_cons_inj_of_notMem (hash_not_mem x) (not_mem_numeral (by decide) (by decide) (by decide))).mp hname
  exact ⟨(List.cons.inj hcons).2, numeral_inj (by decide) (by decide) hid⟩

/-- From there on the number of the connection is cut off. -/
example : let peerAddr := InetAddress.ofIpPort false (dotted ⟨255, 255, 255, 255⟩) 65535
    connName peerAddr 100000000 [] = connName peerAddr 100000001 [] := by decide +kernel

end TcpClient

end Simplev
