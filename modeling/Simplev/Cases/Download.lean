import Simplev.Base.Convert
import Simplev.Cases.Curl

/-!
# `Cases.Download` — downloading a file in pieces (`download.cc`)

A `Downloader` asks for the headers first, and when the server takes ranges and the file is long it makes
`kConcurrent` requests, a range and an output file for each; else it makes one. The transfers run on
one `Curl`, in any order and any interleaving, and the last one to be reported makes the loop quit.

The machine here has the `Curl` of `Cases.Curl` inside: what libcurl delivers to a request goes to the
request's callbacks, and `Request::done` runs what was bound to it.

## Contents
- **The headers.** `onHeader`, with what it uses of the C library.
- **Requests and pieces.** What is asked for, under which range and for which file.
- **The program.** `onHeaderDone`, `concurrentDownload`, and the callbacks of a `Piece`.
-/

namespace Simplev

open Foundation InPlace

namespace DownloadRun

/-- A text, such as the name of a file. -/
abbrev Text := List UInt8

/-! ## The headers -/

/-- `startWith`. -/
def startWith (str pre : Text) : Bool := pre.length ≤ str.length && str.take pre.length == pre

def isspace (c : UInt8) : Bool := c == 32 || (9 ≤ c && c ≤ 13)

def isdigit (c : UInt8) : Bool := 48 ≤ c && c ≤ 57

/-- `atoll`: blanks, a sign, digits. What is out of range becomes the nearest `long long`. -/
def atoll (text : Text) : Int :=
  let text := text.dropWhile isspace
  let value (text : Text) : Nat := (parseNat 10 (text.takeWhile isdigit)).getD 0
  match text with
  | 43 :: rest => min (value rest) 9223372036854775807
  | 45 :: rest => max (-(value rest : Int)) (-9223372036854775808)
  | rest => min (value rest) 9223372036854775807

def http11 : Text := ['H', 'T', 'T', 'P', '/', '1', '.', '1', ' ', '2', '0', '0'].map Char.toUInt8

def http10 : Text := ['H', 'T', 'T', 'P', '/', '1', '.', '0', ' ', '2', '0', '0'].map Char.toUInt8

def acceptRanges : Text :=
  ['A', 'c', 'c', 'e', 'p', 't', '-', 'R', 'a', 'n', 'g', 'e', 's', ':', ' ',
   'b', 'y', 't', 'e', 's', '\r', '\n'].map Char.toUInt8

def contentLength : Text :=
  ['C', 'o', 'n', 't', 'e', 'n', 't', '-', 'L', 'e', 'n', 'g', 't', 'h', ':'].map Char.toUInt8

/-! ## Requests and pieces -/

inductive DataCallback where
  /-- `Piece::onData` of the `k`-th piece. -/
  | piece (k : Nat)
  /-- `Downloader::onData`. -/
  | onData
deriving DecidableEq, Repr

inductive DoneCallback where
  /-- `Piece::onDone` of the `k`-th piece. -/
  | piece (k : Nat)
  | onHeaderDone
  | onDownloadDone
deriving DecidableEq, Repr

/-- A `Request`, with what `setopt` has told libcurl. -/
structure Request where
  /-- `CURLOPT_NOBODY`. -/
  nobody : Bool
  /-- `CURLOPT_RANGE`. -/
  range : Option Text
  dataCb_ : Option DataCallback
  /-- Whether `headerCb_` is `Downloader::onHeader`. -/
  headerCb_ : Bool
  doneCb_ : Option DoneCallback
deriving DecidableEq, Repr

/-- The request of the constructor, after `headerOnly`. -/
def headerRequest : Request := ⟨true, none, none, true, some .onHeaderDone⟩

/-- `req2_`. -/
def singleRequest : Request := ⟨false, none, some .onData, false, some .onDownloadDone⟩

/-- What the constructor of a `Piece` makes of its request. -/
def pieceRequest (k : Nat) (range : Text) : Request :=
  ⟨false, some range, some (.piece k), false, some (.piece k)⟩

structure Piece where
  req_ : Option Nat
  /-- The name of the open file. -/
  out_ : Option Text
  range_ : Text
deriving DecidableEq, Repr

def kConcurrent : Nat := 4

/-- `%05d`. -/
def fiveDigits (n : Nat) : Text := List.replicate (5 - (numeral 10 n).length) zeroChar ++ numeral 10 n

/-- `"output-%05d-of-%05d"`. -/
def outputName (i : Nat) : Text :=
  ['o', 'u', 't', 'p', 'u', 't', '-'].map Char.toUInt8 ++ fiveDigits i ++
    ['-', 'o', 'f', '-'].map Char.toUInt8 ++ fiveDigits kConcurrent

/-- `"output.html"`. -/
def outputHtml : Text := ['o', 'u', 't', 'p', 'u', 't', '.', 'h', 't', 'm', 'l'].map Char.toUInt8

/-- The range of the `i`-th piece. No number in it is greater than `length`, so none leaves `int64_t`. -/
def pieceRange (length : Int) (i : Nat) : Text :=
  let pieceLen := length.tdiv kConcurrent
  if i < kConcurrent - 1 then
    decimal (i * pieceLen) ++ [minusChar] ++ decimal ((i + 1) * pieceLen - 1)
  else decimal (i * pieceLen) ++ [minusChar] ++ decimal (length - 1)

structure Downloader where
  req_ : Option Nat
  req2_ : Option Nat
  found_ : Bool
  acceptRanges_ : Bool
  length_ : Int
  /-- The name of the open file. -/
  out_ : Option Text
  pieces_ : List Piece
  concurrent_ : Int
deriving DecidableEq, Repr

def Downloader.onHeader (d : Downloader) (line : Text) : Downloader :=
  let d := if startWith line http11 || startWith line http10 then { d with found_ := true } else d
  if line = acceptRanges then { d with acceptRanges_ := true }
  else if startWith line contentLength then { d with length_ := atoll (line.drop contentLength.length) }
  else d

/-! ## The program -/

structure State where
  curl : CurlRun.State
  /-- All requests made so far. -/
  requests : List Request
  /-- The requests whose `RequestPtr` has been reset. -/
  released : List Nat
  downloader : Downloader
  /-- What has been written to each file. -/
  files : Text → Option (List UInt8)
  /-- The calls of `loop_->quit()`. -/
  quits : Nat
  /-- The calls of `fopen` that failed. -/
  failed : Nat
  /-- A null `FILE*` has been written to. -/
  crashed : Bool
  /-- What each transfer has delivered. -/
  received : Nat → List UInt8
  /-- How much of it `fwrite` has taken; nobody looks at what `fwrite` returns. -/
  written : Nat → List UInt8

inductive Event where
  | callback (callback : CurlRun.Callback)
  /-- libcurl passes on a line of the headers. -/
  | header (i : Nat) (line : Text)
  /-- libcurl passes on bytes of the body; `fwrite` takes no more than `taken` of them. -/
  | data (i : Nat) (bytes : List UInt8) (taken : Nat)
  | finish (i : Nat)
  | actionReturns (again : Bool)
  | checkFinish
  /-- A message is read and `done` is called; `opens i` says whether the `i`-th `fopen` of it succeeds. -/
  | infoRead (opens : Nat → Bool)
  /-- The last pointer to a request that was reset is gone; the guard of its channel may have held it. -/
  | destroy (i : Nat)

namespace State

def setDownloader (s : State) (d : Downloader) : State := { s with downloader := d }

/-- `loop_->quit()`. -/
def quit (s : State) : State := { s with quits := s.quits + 1 }

/-- `fopen(name, "wb")`. -/
def fopen (s : State) (name : Text) : State :=
  { s with files := Function.update s.files name (some []) }

/-- `fwrite`, which falls short where `taken` is smaller than what there is. -/
def fwrite (s : State) (out : Option Text) (bytes : List UInt8) (taken : Nat) : State :=
  match out with
  | some name =>
    { s with files := Function.update s.files name ((s.files name).map (· ++ bytes.take taken)) }
  | none => { s with crashed := true }

/-- `curl_.getUrl(url_)`, and the callbacks and options that are set next. -/
def getUrl (s : State) (request : Request) : Option State :=
  (s.curl.step .getUrl).map fun c => { s with curl := c, requests := s.requests ++ [request] }

/-- An iteration of the loop of `concurrentDownload`. -/
def addPiece (opens : Nat → Bool) (s : State) (i : Nat) : Option State :=
  if opens i then
    let range := pieceRange s.downloader.length_ i
    let k := s.downloader.pieces_.length
    ((s.fopen (outputName i)).getUrl (pieceRequest k range)).map fun t =>
      t.setDownloader { t.downloader with
        pieces_ := t.downloader.pieces_ ++ [⟨some s.curl.requests, some (outputName i), range⟩] }
  else some { s.quit with failed := s.failed + 1 }

def concurrentDownload (s : State) (opens : Nat → Bool) : Option State :=
  (List.range kConcurrent).foldlM (addPiece opens) s

def onHeaderDone (s : State) (opens : Nat → Bool) : Option State :=
  let d := s.downloader
  if d.acceptRanges_ ∧ d.length_ ≥ kConcurrent * 4096 then
    (s.setDownloader { d with concurrent_ := kConcurrent }).concurrentDownload opens
  else if d.found_ then
    if opens 0 then
      let s := { s.fopen outputHtml with released := s.released ++ d.req_.toList }
      (s.getUrl singleRequest).map fun t =>
        t.setDownloader { d with
          out_ := some outputHtml, req_ := none, req2_ := some s.curl.requests, concurrent_ := 1 }
    else some { s.quit with failed := s.failed + 1 }
  else some s.quit

def onDownloadDone (s : State) : State :=
  let s := s.setDownloader { s.downloader with concurrent_ := s.downloader.concurrent_ - 1 }
  if s.downloader.concurrent_ ≤ 0 then s.quit else s

/-- `Piece::onDone`. -/
def pieceDone (s : State) (k : Nat) : State :=
  match s.downloader.pieces_[k]? with
  | some p =>
    let pieces := s.downloader.pieces_.set k { p with req_ := none, out_ := none }
    ({ s.setDownloader { s.downloader with pieces_ := pieces } with
        released := s.released ++ p.req_.toList }).onDownloadDone
  | none => s

/-- `Request::done`. -/
def done (s : State) (i : Nat) (opens : Nat → Bool) : Option State :=
  match (s.requests[i]?).bind (·.doneCb_) with
  | some .onHeaderDone => s.onHeaderDone opens
  | some (.piece k) => some (s.pieceDone k)
  | some .onDownloadDone => some s.onDownloadDone
  | none => some s

/-- `Request::headerCallback`. -/
def headerCallback (s : State) (i : Nat) (line : Text) : State :=
  if (s.requests[i]?).any (·.headerCb_) then s.setDownloader (s.downloader.onHeader line) else s

/-- `Request::dataCallback`. -/
def dataCallback (s : State) (i : Nat) (bytes : List UInt8) (taken : Nat) : State :=
  match (s.requests[i]?).bind (·.dataCb_) with
  | some (.piece k) => s.fwrite ((s.downloader.pieces_[k]?).bind (·.out_)) bytes taken
  | some .onData => s.fwrite s.downloader.out_ bytes taken
  | none => s

/-- A step of the `Curl` alone. -/
def onCurl (s : State) (e : CurlRun.Event) : Option State :=
  (s.curl.step e).map fun c => { s with curl := c }

/-- In a socket action libcurl delivers to the transfers that run. -/
def delivers (s : State) (i : Nat) : Bool :=
  match s.curl.stage with
  | .acting _ => i ∈ s.curl.curl.curlm_.running
  | _ => false

def step (s : State) : Event → Option State
  | .callback callback => s.onCurl (.callback callback)
  | .header i line => if s.delivers i then some (s.headerCallback i line) else none
  | .data i bytes taken =>
    if s.delivers i then
      some { s.dataCallback i bytes taken with
        received := Function.update s.received i (s.received i ++ bytes)
        written := Function.update s.written i (s.written i ++ bytes.take taken) }
    else none
  | .finish i => s.onCurl (.finish i)
  | .actionReturns again => s.onCurl (.actionReturns again)
  | .checkFinish => s.onCurl .checkFinish
  | .infoRead opens =>
    (s.onCurl .infoRead).bind fun t =>
      match s.curl.curl.curlm_.messages with
      | [] => some t
      | i :: _ => t.done i opens
  | .destroy i => if i ∈ s.released then s.onCurl (.destroy i) else none

end State

/-- After the constructor of the `Downloader`. -/
def State.new : State where
  curl := ⟨⟨⟨[0], []⟩, 0, 0⟩, .idle, 1, [], [], [], 1, 0, []⟩
  requests := [headerRequest]
  released := []
  downloader := ⟨some 0, none, false, false, 0, none, [], 0⟩
  files _ := none
  quits := 0
  failed := 0
  crashed := false
  received _ := []
  written _ := []

/-- All runs of a download. -/
def downloadMachine : Machine State Event where
  init s := s = State.new
  step := State.step

end DownloadRun

end Simplev
