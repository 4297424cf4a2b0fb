import Simplev.Cases.Download

/-!
# `Cases.Correctness.Quits` — when a download makes the loop quit

A `Downloader` counts its transfers down, and `checkFinish` may report a transfer later than it finished.
`quits_when_done` says that the count is right nevertheless: the loop is told to quit when the last
transfer has been reported, and it is told to quit before it has nothing left to do.

## Contents
- **The books.** What the requests, the pieces, the files and the counter have to do with each other, in
  each phase of a download (`Phase`), and what every phase keeps (`Sound`).
- **Steps.** `Phase.done` is `Request::done` in each phase, `Sound.data` and `Sound.headerCallback` what
  libcurl delivers; `Books.step` puts them together.
-/

namespace Simplev

open Foundation InPlace

namespace DownloadRun

/-! ## The books -/

namespace State

variable {s s' : State}

/-- What every state keeps, whatever the phase of the download. -/
structure Sound (s : State) : Prop where
  kept : s.curl.Kept
  made : s.requests.length = s.curl.requests
  released : ∀ i ∈ s.released, i ∈ s.curl.done
  destroyed : ∀ i ∈ s.curl.destroyed, i ∈ s.curl.done
  crashed : s.crashed = false
  fresh : ∀ i, s.requests.length ≤ i → s.written i = []

/-- The headers are awaited. -/
structure Awaiting (s : State) : Prop where
  requests : s.requests = [headerRequest]
  done : s.curl.done = []
  pieces : s.downloader.pieces_ = []
  req : s.downloader.req_ = some 0
  req2 : s.downloader.req2_ = none
  failed : s.failed = 0
  quits : s.quits = 0

/-- The `k`-th piece, which is the `i`-th part of the file. -/
def pieceOf (length : Int) (done : List Nat) (k i : Nat) : Piece :=
  if k + 1 ∈ done then ⟨none, none, pieceRange length i⟩
  else ⟨some (k + 1), some (outputName i), pieceRange length i⟩

/-- **In pieces**: `opened` are the parts whose file could be opened, among the first `n`. -/
structure Ranged (s : State) (opened : List Nat) (n : Nat) : Prop where
  long : kConcurrent * 4096 ≤ s.downloader.length_
  nodup : opened.Nodup
  bound : ∀ i ∈ opened, i < n
  all : s.failed = 0 → opened = List.range n
  count : opened.length + s.failed = n
  requests : s.requests =
    headerRequest :: opened.mapIdx fun k i => pieceRequest k (pieceRange s.downloader.length_ i)
  pieces : s.downloader.pieces_ = opened.mapIdx (pieceOf s.downloader.length_ s.curl.done)
  files : ∀ k i, opened[k]? = some i → s.files (outputName i) = some (s.written (k + 1))
  header : 0 ∈ s.curl.done
  counter : s.downloader.concurrent_ + s.curl.done.length = kConcurrent + 1
  req2 : s.downloader.req2_ = none
  quits : s.quits = s.failed + if s.curl.done.length = kConcurrent + 1 then 1 else 0

/-- In one go. -/
structure Single (s : State) : Prop where
  requests : s.requests = [headerRequest, singleRequest]
  pieces : s.downloader.pieces_ = []
  out : s.downloader.out_ = some outputHtml
  file : s.files outputHtml = some (s.written 1)
  header : 0 ∈ s.curl.done
  counter : s.downloader.concurrent_ + s.curl.done.length = 2
  req2 : s.downloader.req2_ = some 1
  failed : s.failed = 0
  quits : s.quits = if s.curl.done.length = 2 then 1 else 0

/-- There is nothing to download, or nowhere to write it. -/
structure Ended (s : State) : Prop where
  requests : s.requests = [headerRequest]
  header : 0 ∈ s.curl.done
  pieces : s.downloader.pieces_ = []
  req2 : s.downloader.req2_ = none
  quits : s.quits = 1

inductive Phase (s : State) : Prop
  | awaiting (h : s.Awaiting)
  | ranged (opened : List Nat) (h : s.Ranged opened kConcurrent)
  | single (h : s.Single)
  | ended (h : s.Ended)

/-! ## Steps of the `Curl` -/

/-- What a step of the `Curl` alone leaves. -/
theorem curl_frame {c c' : CurlRun.State} {e : CurlRun.Event} (h : c.step e = some c')
    (hget : e ≠ .getUrl) (hread : e ≠ .infoRead) :
    c'.done = c.done ∧ c'.requests = c.requests ∧ ∀ i ∈ c'.destroyed, i ∈ c.destroyed ∨ e = .destroy i := by
  cases e with
  | getUrl => exact absurd rfl hget
  | infoRead => exact absurd rfl hread
  | destroy j =>
      simp only [CurlRun.State.step, Option.ite_none_right_eq_some, Option.some.injEq] at h
      obtain ⟨-, rfl⟩ := h
      refine ⟨rfl, rfl, fun i hi => ?_⟩
      rcases List.mem_append.mp hi with hi | hi
      · exact .inl hi
      · exact .inr (List.mem_singleton.mp hi ▸ rfl)
  | callback callback =>
      simp only [CurlRun.State.step, Option.ite_none_right_eq_some, Option.some.injEq] at h
      obtain ⟨-, rfl⟩ := h
      exact ⟨rfl, rfl, fun i hi => .inl hi⟩
  | checkFinish =>
      simp only [CurlRun.State.step, Option.ite_none_right_eq_some, Option.some.injEq] at h
      obtain ⟨-, rfl⟩ := h
      split
      · exact ⟨rfl, rfl, fun i hi => .inl hi⟩
      · exact ⟨rfl, rfl, fun i hi => .inl hi⟩
  | finish j =>
      simp only [CurlRun.State.step] at h
      split at h
      · simp only [Option.ite_none_right_eq_some, Option.some.injEq] at h
        obtain ⟨-, rfl⟩ := h
        exact ⟨rfl, rfl, fun i hi => .inl hi⟩
      · exact absurd h (by simp)
  | actionReturns again =>
      simp only [CurlRun.State.step] at h
      split at h
      · obtain rfl := Option.some.inj h
        exact ⟨rfl, rfl, fun i hi => .inl hi⟩
      · exact absurd h (by simp)

/-- No phase reads more of the `Curl` than what is done. -/
theorem Phase.frame (h : s.Phase) {c : CurlRun.State} (hdone : c.done = s.curl.done) :
    Phase { s with curl := c } := by
  cases h with
  | awaiting h => exact .awaiting ⟨h.requests, hdone.trans h.done, h.pieces, h.req, h.req2, h.failed, h.quits⟩
  | ranged opened h =>
      refine .ranged opened ⟨h.long, h.nodup, h.bound, h.all, h.count, h.requests, ?_, h.files, ?_, ?_, h.req2, ?_⟩
      · exact hdone ▸ h.pieces
      · exact hdone ▸ h.header
      · exact hdone ▸ h.counter
      · exact hdone ▸ h.quits
  | single h =>
      refine .single ⟨h.requests, h.pieces, h.out, h.file, ?_, ?_, h.req2, h.failed, ?_⟩
      · exact hdone ▸ h.header
      · exact hdone ▸ h.counter
      · exact hdone ▸ h.quits
  | ended h => exact .ended ⟨h.requests, hdone ▸ h.header, h.pieces, h.req2, h.quits⟩

theorem Sound.onCurl (h : s.Sound) {e : CurlRun.Event} (hget : e ≠ .getUrl) (hread : e ≠ .infoRead)
    (hdestroy : ∀ i, e = .destroy i → i ∈ s.curl.done) (hstep : s.onCurl e = some s') :
    s'.Sound ∧ (s.Phase → s'.Phase) := by
  obtain ⟨c, hc, rfl⟩ := Option.map_eq_some_iff.mp hstep
  obtain ⟨hdone, hrequests, hdestroyed⟩ := curl_frame hc hget hread
  have hlets : s.curl.LetsFinish e := by
    cases e with
    | destroy i =>
        -- what is done does not run
        intro hrunning
        have hnodup := (List.nodup_append.mp h.kept.distinct.nodup).2.2
        exact hnodup i (List.mem_append_left _ hrunning) i (hdestroy i rfl) rfl
    | _ => trivial
  refine ⟨⟨h.kept.step hlets hc, h.made.trans hrequests.symm, ?_, ?_, h.crashed, h.fresh⟩,
    fun hphase => hphase.frame hdone⟩
  · intro i hi
    rw [hdone]
    exact h.released i hi
  · intro i hi
    rw [hdone]
    rcases hdestroyed i hi with hold | rfl
    · exact h.destroyed i hold
    · exact hdestroy i rfl

/-- `getUrl` in a callback of `done`. -/
theorem getUrl_eq (h : s.curl.Kept) (hreading : s.curl.stage = .reading) (request : Request) :
    ∃ c : CurlRun.State, s.getUrl request = some { s with curl := c, requests := s.requests ++ [request] } ∧
      c.Kept ∧ c.stage = .reading ∧ c.requests = s.curl.requests + 1 ∧ c.done = s.curl.done ∧
      c.destroyed = s.curl.destroyed := by
  have hnot : s.curl.stage ≠ .acted := by
    rw [hreading]
    decide
  have hstep : s.curl.step .getUrl = some _ := if_pos hnot
  refine ⟨_, ?_, h.step (e := .getUrl) trivial hstep, hreading, rfl, rfl, rfl⟩
  rw [getUrl, hstep]
  rfl

/-- What reading a message leaves. -/
theorem Sound.infoRead (h : s.Sound) (hstep : s.onCurl .infoRead = some s') :
    s'.Sound ∧
      (s.curl.curl.curlm_.messages = [] ∧ (s.Phase → s'.Phase) ∨
        ∃ i rest, s.curl.curl.curlm_.messages = i :: rest ∧ i ∉ s.curl.done ∧ i < s.requests.length ∧
          s'.curl.stage = .reading ∧ ∃ c, s' = { s with curl := c } ∧ c.done = s.curl.done ++ [i]) := by
  obtain ⟨c, hc, rfl⟩ := Option.map_eq_some_iff.mp hstep
  have hkept := h.kept.step (e := .infoRead) trivial hc
  simp only [CurlRun.State.step, Option.ite_none_right_eq_some] at hc
  obtain ⟨hstage, hc⟩ := hc
  split at hc
  · rename_i hread
    obtain rfl := Option.some.inj hc
    refine ⟨⟨hkept, h.made, h.released, h.destroyed, h.crashed, h.fresh⟩, .inl ⟨?_, ?_⟩⟩
    · exact CurlRun.Multi.infoRead_eq_none hread
    · exact fun hphase => hphase.frame rfl
  · rename_i i m hread
    obtain rfl := Option.some.inj hc
    obtain ⟨hmessages, -⟩ := CurlRun.Multi.infoRead_eq_some hread
    have hmem : i ∈ s.curl.curl.curlm_.messages := hmessages ▸ List.mem_cons_self
    have hbound := h.kept.distinct.bound i (List.mem_append_left _ (List.mem_append_right _ hmem))
    refine ⟨⟨hkept, h.made, ?_, ?_, h.crashed, h.fresh⟩,
      .inr ⟨i, _, hmessages, ?_, ?_, hstage, _, rfl, rfl⟩⟩
    · exact fun j hj => List.mem_append_left _ (h.released j hj)
    · exact fun j hj => List.mem_append_left _ (h.destroyed j hj)
    · exact h.kept.distinct.not_done hmem
    · exact h.made ▸ hbound

/-- No more are done than have been made. -/
theorem Sound.length_done_le (h : s.Sound) : s.curl.done.length ≤ s.requests.length := by
  have hsub : s.curl.done ⊆ List.range s.requests.length := by
    intro i hi
    rw [List.mem_range, h.made]
    exact h.kept.distinct.bound i (List.mem_append_right _ hi)
  have hperm := h.kept.distinct.done_nodup.subperm hsub
  have hle := hperm.length_le
  rw [List.length_range] at hle
  exact hle

/-- When as many are done as have been made, all are. -/
theorem Sound.all_done (h : s.Sound) (hlength : s.curl.done.length = s.requests.length) {i : Nat}
    (hi : i < s.requests.length) : i ∈ s.curl.done := by
  have hsub : s.curl.done ⊆ List.range s.requests.length := by
    intro j hj
    rw [List.mem_range, h.made]
    exact h.kept.distinct.bound j (List.mem_append_right _ hj)
  have hperm := (h.kept.distinct.done_nodup.subperm hsub).perm_of_length_le
    (by rw [List.length_range, hlength])
  exact hperm.mem_iff.mpr (List.mem_range.mpr hi)

/-! ## The headers are there -/

theorem outputName_inj {i j : Nat} (hi : i < kConcurrent) (hj : j < kConcurrent)
    (h : outputName i = outputName j) : i = j := by
  have hall : ∀ i j : Fin kConcurrent, outputName i = outputName j → i = j := by decide
  exact congrArg Fin.val (hall ⟨i, hi⟩ ⟨j, hj⟩ h)

/-- In the loop of `concurrentDownload`, after `n` parts. -/
structure Opening (s : State) (n : Nat) : Prop where
  sound : s.Sound
  reading : s.curl.stage = .reading
  done : s.curl.done = [0]
  ranged : ∃ opened, s.Ranged opened n

/-- A part whose file cannot be opened. -/
theorem Opening.addFailed {n : Nat} (h : s.Opening n) {opens : Nat → Bool} (hopen : ¬ opens n = true) :
    ∃ s', addPiece opens s n = some s' ∧ s'.Opening (n + 1) := by
  obtain ⟨opened, hranged⟩ := h.ranged
  have hadd : addPiece opens s n = some { s.quit with failed := s.failed + 1 } := if_neg hopen
  have hsound : Sound { s.quit with failed := s.failed + 1 } :=
    ⟨h.sound.kept, h.sound.made, h.sound.released, h.sound.destroyed, h.sound.crashed, h.sound.fresh⟩
  refine ⟨_, hadd, hsound, h.reading, h.done, opened, ?_⟩
  refine ⟨hranged.long, hranged.nodup, fun i hi => Nat.lt_succ_of_lt (hranged.bound i hi), ?_, ?_,
    hranged.requests, hranged.pieces, hranged.files, hranged.header, hranged.counter, hranged.req2, ?_⟩
  · exact fun hnone => absurd hnone (Nat.succ_ne_zero _)
  · show opened.length + (s.failed + 1) = n + 1
    rw [← Nat.add_assoc, hranged.count]
  · show s.quits + 1 = s.failed + 1 + _
    rw [hranged.quits, Nat.add_right_comm]
    rfl

/-- A part that gets a file and a request. -/
theorem Opening.addOpened {n : Nat} (h : s.Opening n) (hn : n < kConcurrent) {opens : Nat → Bool}
    (hopen : opens n = true) : ∃ s', addPiece opens s n = some s' ∧ s'.Opening (n + 1) := by
  obtain ⟨opened, hranged⟩ := h.ranged
  obtain ⟨c, hget, hkept, hreading, hrequests, hdone, hdestroyed⟩ :=
    getUrl_eq (s := s.fopen (outputName n)) h.sound.kept h.reading
      (pieceRequest s.downloader.pieces_.length (pieceRange s.downloader.length_ n))
  have hadd : addPiece opens s n = _ :=
    (if_pos hopen).trans (congrArg (Option.map _) hget)
  have hfresh : n ∉ opened := fun hmem => absurd (hranged.bound n hmem) (Nat.lt_irrefl n)
  have hcount : s.downloader.pieces_.length = opened.length := by
    rw [hranged.pieces, List.length_mapIdx]
  have hlength : s.requests.length = opened.length + 1 := by
    rw [hranged.requests, List.length_cons, List.length_mapIdx]
  have hdone' : c.done = [0] := hdone.trans h.done
  refine ⟨_, hadd, ⟨hkept, ?_, ?_, ?_, h.sound.crashed, ?_⟩, hreading, hdone', opened ++ [n], ?_⟩
  · show (s.requests ++ [_]).length = c.requests
    rw [List.length_append, h.sound.made, hrequests]
    rfl
  · exact fun i hi => hdone ▸ h.sound.released i hi
  · intro i hi
    show i ∈ c.done
    rw [hdone]
    exact h.sound.destroyed i (hdestroyed ▸ hi)
  · intro i hi
    have hi : (s.requests ++ [_]).length ≤ i := hi
    rw [List.length_append] at hi
    exact h.sound.fresh i (Nat.le_of_succ_le hi)
  · refine ⟨hranged.long, ?_, ?_, ?_, ?_, ?_, ?_, ?_, hdone' ▸ List.mem_singleton_self 0, ?_, hranged.req2, ?_⟩
    · refine List.nodup_append.mpr ⟨hranged.nodup, List.nodup_singleton n, ?_⟩
      rintro i hi j hj rfl
      exact hfresh (List.mem_singleton.mp hj ▸ hi)
    · intro i hi
      rcases List.mem_append.mp hi with hi | hi
      · exact Nat.lt_succ_of_lt (hranged.bound i hi)
      · exact List.mem_singleton.mp hi ▸ Nat.lt_succ_self n
    · intro hnone
      rw [hranged.all hnone, List.range_succ]
    · show (opened ++ [n]).length + s.failed = n + 1
      rw [List.length_append, List.length_singleton, Nat.add_right_comm, hranged.count]
    · show s.requests ++ [_] = headerRequest :: (opened ++ [n]).mapIdx fun k i =>
        pieceRequest k (pieceRange s.downloader.length_ i)
      rw [hranged.requests, List.mapIdx_concat, hcount]
      rfl
    · show s.downloader.pieces_ ++ [⟨some s.curl.requests, some (outputName n), _⟩] =
        (opened ++ [n]).mapIdx (pieceOf s.downloader.length_ c.done)
      have hopened : opened.length + 1 ∉ s.curl.done := by simp [h.done]
      rw [hranged.pieces, List.mapIdx_concat, hdone, ← h.sound.made, hlength]
      congr 1
      exact congrArg (fun p => [p]) (if_neg hopened).symm
    · intro k i hk
      show Function.update s.files (outputName n) (some []) (outputName i) = some (s.written (k + 1))
      rcases Nat.lt_or_ge k opened.length with hlt | hge
      · -- the files that are open already have other names
        rw [List.getElem?_append_left hlt] at hk
        have hi := List.mem_of_getElem? hk
        have hother : outputName i ≠ outputName n := by
          intro hsame
          have hin := Nat.lt_trans (hranged.bound i hi) hn
          exact hfresh (outputName_inj hin hn hsame ▸ hi)
        rw [Function.update_of_ne hother]
        exact hranged.files k i hk
      · rw [List.getElem?_append_right hge] at hk
        obtain ⟨hzero, rfl⟩ := List.getElem?_eq_some_iff.mp hk
        have hnew : k = opened.length := by
          simp only [List.length_singleton] at hzero
          omega
        subst hnew
        simp only [Nat.sub_self, List.getElem_cons_zero, Function.update_self]
        rw [h.sound.fresh _ (Nat.le_of_eq hlength)]
    · show s.downloader.concurrent_ + (c.done.length : Int) = kConcurrent + 1
      rw [hdone]
      exact hranged.counter
    · show s.quits = s.failed + if c.done.length = kConcurrent + 1 then 1 else 0
      rw [hdone]
      exact hranged.quits

/-- The loop of `concurrentDownload`. -/
theorem Opening.concurrentDownload (h : s.Opening 0) (opens : Nat → Bool) :
    ∃ s', s.concurrentDownload opens = some s' ∧ s'.Opening kConcurrent := by
  have hsome : ∀ n ≤ kConcurrent,
      ∃ s', (List.range n).foldlM (addPiece opens) s = some s' ∧ s'.Opening n := by
    intro n hn
    induction n with
    | zero => exact ⟨s, rfl, h⟩
    | succ n ih =>
        obtain ⟨t, ht, hopening⟩ := ih (Nat.le_of_succ_le hn)
        have hadd : ∃ s', addPiece opens t n = some s' ∧ s'.Opening (n + 1) := by
          by_cases hopen : opens n = true
          · exact hopening.addOpened hn hopen
          · exact hopening.addFailed hopen
        obtain ⟨s', hs', hnext⟩ := hadd
        refine ⟨s', ?_, hnext⟩
        rw [List.range_succ, List.foldlM_append, ht]
        exact (bind_pure _).trans hs'
  exact hsome kConcurrent (Nat.le_refl _)

/-- **`onHeaderDone`** begins the download, or ends it. -/
theorem Sound.onHeaderDone (h : s.Sound) (hreading : s.curl.stage = .reading) (hdone : s.curl.done = [0])
    (hawaited : ∃ c, Awaiting { s with curl := c }) (opens : Nat → Bool) :
    ∃ s', s.onHeaderDone opens = some s' ∧ s'.Sound ∧ s'.Phase := by
  obtain ⟨_, hrequests, -, hpieces, hreq, hreq2, hfailed, hquits⟩ := hawaited
  have hheader : 0 ∈ s.curl.done := hdone ▸ List.mem_singleton_self 0
  by_cases hlong : s.downloader.acceptRanges_ ∧ s.downloader.length_ ≥ kConcurrent * 4096
  · -- in pieces
    have hbegin : s.onHeaderDone opens =
        (s.setDownloader { s.downloader with concurrent_ := kConcurrent }).concurrentDownload opens :=
      if_pos hlong
    have hopening : Opening (s.setDownloader { s.downloader with concurrent_ := kConcurrent }) 0 := by
      refine ⟨⟨h.kept, h.made, h.released, h.destroyed, h.crashed, h.fresh⟩, hreading, hdone, [], ?_⟩
      refine ⟨hlong.2, List.nodup_nil, ?_, fun _ => rfl, ?_, hrequests, hpieces, ?_, hheader, ?_, hreq2, ?_⟩
      · exact fun i hi => absurd hi List.not_mem_nil
      · exact (Nat.zero_add _).trans hfailed
      · exact fun k i hk => absurd hk (by simp)
      · show (kConcurrent : Int) + (s.curl.done.length : Int) = kConcurrent + 1
        rw [hdone]
        rfl
      · show s.quits = s.failed + if s.curl.done.length = kConcurrent + 1 then 1 else 0
        rw [show s.quits = 0 from hquits, show s.failed = 0 from hfailed, hdone]
        rfl
    obtain ⟨s', hs', hopened⟩ := hopening.concurrentDownload opens
    obtain ⟨opened, hranged⟩ := hopened.ranged
    exact ⟨s', hbegin.trans hs', hopened.sound, .ranged opened hranged⟩
  by_cases hfound : s.downloader.found_ = true
  · by_cases hopen : opens 0 = true
    · -- in one go
      obtain ⟨c, hget, hkept, -, hmade, hdone', hdestroyed⟩ :=
        getUrl_eq (s := { s.fopen outputHtml with released := s.released ++ s.downloader.req_.toList })
          h.kept hreading singleRequest
      have hbegin : s.onHeaderDone opens = _ :=
        (if_neg hlong).trans ((if_pos hfound).trans ((if_pos hopen).trans (congrArg (Option.map _) hget)))
      refine ⟨_, hbegin, ⟨hkept, ?_, ?_, ?_, h.crashed, ?_⟩, .single ?_⟩
      · show (s.requests ++ [_]).length = c.requests
        rw [List.length_append, h.made, hmade]
        rfl
      · intro i hi
        show i ∈ c.done
        rw [hdone']
        rcases List.mem_append.mp hi with hi | hi
        · exact h.released i hi
        · rw [show s.downloader.req_ = some 0 from hreq] at hi
          exact List.mem_singleton.mp hi ▸ hheader
      · intro i hi
        show i ∈ c.done
        rw [hdone']
        exact h.destroyed i (hdestroyed ▸ hi)
      · intro i hi
        have hi : (s.requests ++ [_]).length ≤ i := hi
        rw [List.length_append] at hi
        exact h.fresh i (Nat.le_of_succ_le hi)
      · have hdone' : c.done = [0] := hdone'.trans hdone
        have hone : s.requests.length = 1 := congrArg List.length hrequests
        refine ⟨congrArg (· ++ [singleRequest]) hrequests, hpieces, rfl, ?_,
          hdone' ▸ List.mem_singleton_self 0, ?_, ?_, hfailed, ?_⟩
        · show Function.update s.files outputHtml (some []) outputHtml = some (s.written 1)
          rw [Function.update_self, h.fresh 1 (Nat.le_of_eq hone)]
        · show (1 : Int) + (c.done.length : Int) = 2
          rw [hdone']
          rfl
        · show some s.curl.requests = some 1
          rw [← h.made, hone]
        · show s.quits = if c.done.length = 2 then 1 else 0
          rw [show s.quits = 0 from hquits, hdone']
          rfl
    · -- the file cannot be opened
      have hend : s.onHeaderDone opens = some { s.quit with failed := s.failed + 1 } :=
        (if_neg hlong).trans ((if_pos hfound).trans (if_neg hopen))
      refine ⟨_, hend, ⟨h.kept, h.made, h.released, h.destroyed, h.crashed, h.fresh⟩, .ended ?_⟩
      exact ⟨hrequests, hheader, hpieces, hreq2, congrArg (· + 1) hquits⟩
  · -- the file is not found
    have hend : s.onHeaderDone opens = some s.quit := (if_neg hlong).trans (if_neg hfound)
    refine ⟨_, hend, ⟨h.kept, h.made, h.released, h.destroyed, h.crashed, h.fresh⟩, .ended ?_⟩
    exact ⟨hrequests, hheader, hpieces, hreq2, congrArg (· + 1) hquits⟩

/-! ## The pieces -/

/-- `onDownloadDone` counts down, and the last one makes the loop quit. -/
theorem onDownloadDone_eq (s : State) :
    s.onDownloadDone = { s.setDownloader { s.downloader with concurrent_ := s.downloader.concurrent_ - 1 } with
      quits := s.quits + if s.downloader.concurrent_ ≤ 1 then 1 else 0 } := by
  unfold State.onDownloadDone
  have hiff : s.downloader.concurrent_ - 1 ≤ 0 ↔ s.downloader.concurrent_ ≤ 1 := by omega
  by_cases hlast : s.downloader.concurrent_ ≤ 1
  · rw [if_pos hlast]
    exact if_pos (hiff.mpr hlast)
  · rw [if_neg hlast]
    exact if_neg (mt hiff.mp hlast)

theorem pieceDone_eq {k : Nat} {p : Piece} (h : s.downloader.pieces_[k]? = some p) :
    s.pieceDone k = { s.setDownloader { s.downloader with
        pieces_ := s.downloader.pieces_.set k { p with req_ := none, out_ := none }
        concurrent_ := s.downloader.concurrent_ - 1 } with
      released := s.released ++ p.req_.toList
      quits := s.quits + if s.downloader.concurrent_ ≤ 1 then 1 else 0 } := by
  unfold State.pieceDone
  rw [h]
  exact onDownloadDone_eq _

/-- The `k`-th piece is done, the others are as they were. -/
theorem set_pieceOf {opened done : List Nat} {length : Int} {k part : Nat} (hk : opened[k]? = some part) :
    (opened.mapIdx (pieceOf length done)).set k ⟨none, none, pieceRange length part⟩ =
      opened.mapIdx (pieceOf length (done ++ [k + 1])) := by
  refine List.ext_getElem? fun j => ?_
  rw [List.getElem?_set, List.getElem?_mapIdx, List.getElem?_mapIdx, List.length_mapIdx]
  by_cases hkj : k = j
  · subst hkj
    have hlt : k < opened.length := (List.getElem?_eq_some_iff.mp hk).1
    have hmem : k + 1 ∈ done ++ [k + 1] := List.mem_append_right _ (List.mem_singleton_self _)
    rw [if_pos rfl, if_pos hlt, hk, Option.map_some, pieceOf, if_pos hmem]
  · have hmem : j + 1 ∈ done ++ [k + 1] ↔ j + 1 ∈ done := by
      rw [List.mem_append, List.mem_singleton]
      exact or_iff_left fun hsame => hkj (Nat.succ.inj hsame).symm
    rw [if_neg hkj]
    refine congrArg (fun f => Option.map f opened[j]?) ?_
    funext part
    simp only [pieceOf, hmem]

theorem Ranged.requests_length {opened : List Nat} {n : Nat} (h : s.Ranged opened n) :
    s.requests.length = opened.length + 1 := by
  rw [h.requests, List.length_cons, List.length_mapIdx]

/-- Which part a request is for. -/
theorem Ranged.part {opened : List Nat} {n i : Nat} (h : s.Ranged opened n) (hi : i < s.requests.length)
    (hnew : i ∉ s.curl.done) :
    ∃ k part, i = k + 1 ∧ opened[k]? = some part ∧
      s.requests[k + 1]? = some (pieceRequest k (pieceRange s.downloader.length_ part)) ∧
      s.downloader.pieces_[k]? =
        some ⟨some (k + 1), some (outputName part), pieceRange s.downloader.length_ part⟩ := by
  rw [h.requests_length] at hi
  cases i with
  | zero => exact absurd h.header hnew
  | succ k =>
      have hpart : opened[k]? = some opened[k] := List.getElem?_eq_getElem (Nat.lt_of_succ_lt_succ hi)
      refine ⟨k, _, rfl, hpart, ?_, ?_⟩
      · rw [h.requests, List.getElem?_cons_succ, List.getElem?_mapIdx, hpart]
        rfl
      · rw [h.pieces, List.getElem?_mapIdx, hpart, Option.map_some, pieceOf, if_neg hnew]

/-- **`Piece::onDone`**, and the last one makes the loop quit. -/
theorem Ranged.pieceDone {opened : List Nat} {i : Nat} {c : CurlRun.State} (h : s.Ranged opened kConcurrent)
    (hsound : Sound { s with curl := c }) (hdone : c.done = s.curl.done ++ [i]) (hnew : i ∉ s.curl.done)
    (hi : i < s.requests.length) (opens : Nat → Bool) :
    ∃ s', State.done { s with curl := c } i opens = some s' ∧ s'.Sound ∧ s'.Phase := by
  obtain ⟨k, part, rfl, hpart, hrequest, hpiece⟩ := h.part hi hnew
  have hcalled : State.done { s with curl := c } (k + 1) opens = some (State.pieceDone { s with curl := c } k) := by
    unfold State.done
    rw [hrequest]
    rfl
  rw [pieceDone_eq (s := { s with curl := c }) hpiece] at hcalled
  have hlength : c.done.length = s.curl.done.length + 1 := by
    rw [hdone, List.length_append, List.length_singleton]
  have hbound : c.done.length ≤ s.requests.length := hsound.length_done_le
  have hcount := h.count
  have hcounter := h.counter
  rw [h.requests_length] at hbound
  refine ⟨_, hcalled, ⟨hsound.kept, hsound.made, ?_, hsound.destroyed, hsound.crashed, hsound.fresh⟩, ?_⟩
  · intro j hj
    rcases List.mem_append.mp hj with hj | hj
    · exact hsound.released j hj
    · show j ∈ c.done
      rw [hdone]
      exact List.mem_append_right _ hj
  · refine .ranged opened ⟨h.long, h.nodup, h.bound, h.all, h.count, h.requests, ?_, h.files, ?_, ?_, h.req2, ?_⟩
    · show s.downloader.pieces_.set k ⟨none, none, _⟩ =
        opened.mapIdx (pieceOf s.downloader.length_ c.done)
      rw [h.pieces, hdone, set_pieceOf hpart]
    · show 0 ∈ c.done
      rw [hdone]
      exact List.mem_append_left _ h.header
    · show s.downloader.concurrent_ - 1 + (c.done.length : Int) = kConcurrent + 1
      omega
    · show s.quits + (if s.downloader.concurrent_ ≤ 1 then 1 else 0) =
        s.failed + if c.done.length = kConcurrent + 1 then 1 else 0
      have hbefore : ¬ s.curl.done.length = kConcurrent + 1 := by omega
      have hlast : s.downloader.concurrent_ ≤ 1 ↔ c.done.length = kConcurrent + 1 := by omega
      rw [h.quits, if_neg hbefore, if_congr hlast rfl rfl, Nat.add_zero]

/-- What is not done is the only transfer of the body. -/
theorem Single.only {i : Nat} (h : s.Single) (hi : i < s.requests.length) (hnew : i ∉ s.curl.done) : i = 1 := by
  rw [h.requests] at hi
  have hzero : i ≠ 0 := fun hzero => hnew (hzero ▸ h.header)
  simp only [List.length_cons, List.length_nil] at hi
  omega

theorem Ended.only {i : Nat} (h : s.Ended) (hi : i < s.requests.length) : i ∈ s.curl.done := by
  rw [h.requests] at hi
  exact Nat.lt_one_iff.mp hi ▸ h.header

/-- The only transfer is done. -/
theorem Single.done {i : Nat} {c : CurlRun.State} (h : s.Single) (hsound : Sound { s with curl := c })
    (hdone : c.done = s.curl.done ++ [i]) (hnew : i ∉ s.curl.done) (hi : i < s.requests.length)
    (opens : Nat → Bool) :
    ∃ s', State.done { s with curl := c } i opens = some s' ∧ s'.Sound ∧ s'.Phase := by
  obtain rfl := h.only hi hnew
  have hcalled : State.done { s with curl := c } 1 opens = some (State.onDownloadDone { s with curl := c }) := by
    unfold State.done
    rw [h.requests]
    rfl
  have hlength : c.done.length = s.curl.done.length + 1 := by
    rw [hdone, List.length_append, List.length_singleton]
  have hbound : c.done.length ≤ s.requests.length := hsound.length_done_le
  have hcounter := h.counter
  rw [h.requests, List.length_cons, List.length_singleton] at hbound
  rw [onDownloadDone_eq] at hcalled
  refine ⟨_, hcalled, ⟨hsound.kept, hsound.made, hsound.released, hsound.destroyed, hsound.crashed,
    hsound.fresh⟩, .single ⟨h.requests, h.pieces, h.out, h.file, ?_, ?_, h.req2, h.failed, ?_⟩⟩
  · show 0 ∈ c.done
    rw [hdone]
    exact List.mem_append_left _ h.header
  · show s.downloader.concurrent_ - 1 + (c.done.length : Int) = 2
    omega
  · show s.quits + (if s.downloader.concurrent_ ≤ 1 then 1 else 0) = if c.done.length = 2 then 1 else 0
    have hbefore : ¬ s.curl.done.length = 2 := by omega
    have hlast : s.downloader.concurrent_ ≤ 1 ↔ c.done.length = 2 := by omega
    rw [h.quits, if_neg hbefore, if_congr hlast rfl rfl, Nat.zero_add]

/-- **`Request::done`**, in each phase. -/
theorem Phase.done {i : Nat} {c : CurlRun.State} (h : s.Phase) (hsound : Sound { s with curl := c })
    (hreading : c.stage = .reading) (hdone : c.done = s.curl.done ++ [i]) (hnew : i ∉ s.curl.done)
    (hi : i < s.requests.length) (opens : Nat → Bool) :
    ∃ s', State.done { s with curl := c } i opens = some s' ∧ s'.Sound ∧ s'.Phase := by
  cases h with
  | awaiting h =>
      have hzero : i = 0 := by
        rw [h.requests] at hi
        exact Nat.lt_one_iff.mp hi
      subst hzero
      rw [h.done] at hdone
      have hcalled : State.done { s with curl := c } 0 opens = State.onHeaderDone { s with curl := c } opens := by
        unfold State.done
        rw [h.requests]
        rfl
      rw [hcalled]
      exact hsound.onHeaderDone hreading hdone ⟨s.curl, h⟩ opens
  | ranged opened h => exact h.pieceDone hsound hdone hnew hi opens
  | single h => exact h.done hsound hdone hnew hi opens
  | ended h => exact absurd (h.only hi) hnew

/-! ## What libcurl delivers -/

theorem running_of_delivers {i : Nat} (h : s.delivers i = true) : i ∈ s.curl.curl.curlm_.running := by
  unfold delivers at h
  split at h
  · exact of_decide_eq_true h
  · cases h

theorem Sound.of_delivers {i : Nat} (h : s.Sound) (hdelivers : s.delivers i = true) :
    i ∉ s.curl.done ∧ i < s.requests.length := by
  have hrunning := running_of_delivers hdelivers
  refine ⟨fun hdone => ?_, ?_⟩
  · exact (List.nodup_append.mp h.kept.distinct.nodup).2.2 i (List.mem_append_left _ hrunning) i hdone rfl
  · rw [h.made]
    exact h.kept.distinct.bound i (List.mem_append_left _ (List.mem_append_left _ hrunning))

/-- A header says what the file is, and nothing about the transfers. -/
theorem onHeader_frame (d : Downloader) (line : Text) :
    (d.onHeader line).pieces_ = d.pieces_ ∧ (d.onHeader line).req_ = d.req_ ∧
      (d.onHeader line).req2_ = d.req2_ := by
  unfold Downloader.onHeader
  split <;> split <;> first | exact ⟨rfl, rfl, rfl⟩ | (split <;> exact ⟨rfl, rfl, rfl⟩)

theorem Sound.headerCallback {i : Nat} (h : s.Sound) (hphase : s.Phase) (hdelivers : s.delivers i = true)
    (line : Text) : (s.headerCallback i line).Sound ∧ (s.headerCallback i line).Phase := by
  obtain ⟨hnew, hi⟩ := h.of_delivers hdelivers
  unfold State.headerCallback
  cases hphase with
  | awaiting hawaiting =>
      obtain ⟨hpieces, hreq, hreq2⟩ := onHeader_frame s.downloader line
      split
      · refine ⟨⟨h.kept, h.made, h.released, h.destroyed, h.crashed, h.fresh⟩, .awaiting ?_⟩
        exact ⟨hawaiting.requests, hawaiting.done, hpieces.trans hawaiting.pieces, hreq.trans hawaiting.req,
          hreq2.trans hawaiting.req2, hawaiting.failed, hawaiting.quits⟩
      · exact ⟨h, .awaiting hawaiting⟩
  | ranged opened hranged =>
      obtain ⟨k, part, rfl, -, hrequest, -⟩ := hranged.part hi hnew
      rw [hrequest, if_neg (by simp [pieceRequest])]
      exact ⟨h, .ranged opened hranged⟩
  | single hsingle =>
      obtain rfl := hsingle.only hi hnew
      rw [hsingle.requests, if_neg (by simp [singleRequest])]
      exact ⟨h, .single hsingle⟩
  | ended hended => exact absurd (hended.only hi) hnew

theorem Sound.data {i : Nat} {bytes : List UInt8} {taken : Nat} (h : s.Sound) (hphase : s.Phase)
    (hdelivers : s.delivers i = true) :
    let s' := { s.dataCallback i bytes taken with
      received := Function.update s.received i (s.received i ++ bytes)
      written := Function.update s.written i (s.written i ++ bytes.take taken) }
    s'.Sound ∧ s'.Phase := by
  obtain ⟨hnew, hi⟩ := h.of_delivers hdelivers
  have hfresh : ∀ j, s.requests.length ≤ j →
      Function.update s.written i (s.written i ++ bytes.take taken) j = [] := by
    intro j hj
    have hother : j ≠ i := fun hsame => absurd (hsame ▸ hj) (Nat.not_le_of_lt hi)
    rw [Function.update_of_ne hother]
    exact h.fresh j hj
  cases hphase with
  | awaiting hawaiting =>
      have hzero : i = 0 := by
        rw [hawaiting.requests] at hi
        exact Nat.lt_one_iff.mp hi
      have hnone : s.dataCallback i bytes taken = s := by
        unfold dataCallback
        rw [hawaiting.requests, hzero]
        rfl
      rw [hnone]
      refine ⟨⟨h.kept, h.made, h.released, h.destroyed, h.crashed, hfresh⟩, .awaiting ?_⟩
      exact ⟨hawaiting.requests, hawaiting.done, hawaiting.pieces, hawaiting.req, hawaiting.req2,
        hawaiting.failed, hawaiting.quits⟩
  | ranged opened hranged =>
      obtain ⟨k, part, rfl, hpart, hrequest, hpiece⟩ := hranged.part hi hnew
      have hwrite : s.dataCallback (k + 1) bytes taken = s.fwrite (some (outputName part)) bytes taken := by
        unfold dataCallback
        rw [hrequest]
        show s.fwrite ((s.downloader.pieces_[k]?).bind (·.out_)) bytes taken = _
        rw [hpiece]
        rfl
      rw [hwrite]
      refine ⟨⟨h.kept, h.made, h.released, h.destroyed, h.crashed, hfresh⟩, .ranged opened ?_⟩
      refine ⟨hranged.long, hranged.nodup, hranged.bound, hranged.all, hranged.count, hranged.requests,
        hranged.pieces, ?_, hranged.header, hranged.counter, hranged.req2, hranged.quits⟩
      intro j part' hj
      show Function.update s.files (outputName part) ((s.files (outputName part)).map _)
        (outputName part') = some (Function.update s.written (k + 1) _ (j + 1))
      by_cases hjk : j = k
      · subst hjk
        obtain rfl : part = part' := Option.some.inj (hpart.symm.trans hj)
        rw [Function.update_self, Function.update_self, hranged.files j part hpart]
        rfl
      · -- another piece has another file
        have hother : outputName part' ≠ outputName part := by
          intro hsame
          have hin := hranged.bound part (List.mem_of_getElem? hpart)
          have hin' := hranged.bound part' (List.mem_of_getElem? hj)
          obtain rfl := outputName_inj hin' hin hsame
          obtain ⟨hlt, hget⟩ := List.getElem?_eq_some_iff.mp hj
          obtain ⟨hlt', hget'⟩ := List.getElem?_eq_some_iff.mp hpart
          exact hjk ((List.Nodup.getElem_inj_iff hranged.nodup).mp (hget.trans hget'.symm))
        have hother' : j + 1 ≠ k + 1 := fun hsame => hjk (Nat.succ.inj hsame)
        rw [Function.update_of_ne hother, Function.update_of_ne hother']
        exact hranged.files j part' hj
  | single hsingle =>
      obtain rfl := hsingle.only hi hnew
      have hwrite : s.dataCallback 1 bytes taken = s.fwrite (some outputHtml) bytes taken := by
        unfold dataCallback
        rw [hsingle.requests]
        exact congrArg (fun out => s.fwrite out bytes taken) hsingle.out
      rw [hwrite]
      refine ⟨⟨h.kept, h.made, h.released, h.destroyed, h.crashed, hfresh⟩, .single ?_⟩
      refine ⟨hsingle.requests, hsingle.pieces, hsingle.out, ?_, hsingle.header, hsingle.counter,
        hsingle.req2, hsingle.failed, hsingle.quits⟩
      show Function.update s.files outputHtml ((s.files outputHtml).map _) outputHtml =
        some (Function.update s.written 1 (s.written 1 ++ bytes.take taken) 1)
      rw [Function.update_self, Function.update_self, hsingle.file]
      rfl
  | ended hended => exact absurd (hended.only hi) hnew

/-! ## Every step -/

/-- **The invariant.** -/
structure Books (s : State) : Prop where
  sound : s.Sound
  phase : s.Phase

theorem new_books : State.new.Books where
  sound :=
    { kept := CurlRun.State.new_kept.step (e := .getUrl) trivial rfl
      made := rfl
      released := fun _ hi => absurd hi List.not_mem_nil
      destroyed := fun _ hi => absurd hi List.not_mem_nil
      crashed := rfl
      fresh := fun _ _ => rfl }
  phase := .awaiting ⟨rfl, rfl, rfl, rfl, rfl, rfl, rfl⟩

/-- In a callback of `done` nothing can go wrong. -/
theorem Books.infoRead (h : s.Books) {t : State} (ht : s.onCurl .infoRead = some t) (opens : Nat → Bool) :
    ∃ s', s.step (.infoRead opens) = some s' ∧ s'.Books := by
  obtain ⟨hsound, ⟨hmessages, hphase⟩ | ⟨i, rest, hmessages, hnew, hi, hreading, c, rfl, hdone⟩⟩ :=
    h.sound.infoRead ht
  · refine ⟨t, ?_, hsound, hphase h.phase⟩
    rw [State.step, ht, hmessages]
    rfl
  · obtain ⟨s', hs', hsound', hphase'⟩ := h.phase.done hsound hreading hdone hnew hi opens
    refine ⟨s', ?_, hsound', hphase'⟩
    rw [State.step, ht, hmessages]
    exact hs'

theorem Books.step (h : s.Books) {e : Event} (hstep : s.step e = some s') : s'.Books := by
  cases e with
  | callback callback =>
      obtain ⟨hsound, hphase⟩ := h.sound.onCurl (by simp) (by simp) (by simp) hstep
      exact ⟨hsound, hphase h.phase⟩
  | finish i =>
      obtain ⟨hsound, hphase⟩ := h.sound.onCurl (by simp) (by simp) (by simp) hstep
      exact ⟨hsound, hphase h.phase⟩
  | actionReturns again =>
      obtain ⟨hsound, hphase⟩ := h.sound.onCurl (by simp) (by simp) (by simp) hstep
      exact ⟨hsound, hphase h.phase⟩
  | checkFinish =>
      obtain ⟨hsound, hphase⟩ := h.sound.onCurl (by simp) (by simp) (by simp) hstep
      exact ⟨hsound, hphase h.phase⟩
  | destroy i =>
      simp only [State.step, Option.ite_none_right_eq_some] at hstep
      obtain ⟨hreleased, hstep⟩ := hstep
      have hdone : ∀ j, CurlRun.Event.destroy i = .destroy j → j ∈ s.curl.done := by
        rintro j ⟨⟩
        exact h.sound.released i hreleased
      obtain ⟨hsound, hphase⟩ := h.sound.onCurl (by simp) (by simp) hdone hstep
      exact ⟨hsound, hphase h.phase⟩
  | header i line =>
      simp only [State.step, Option.ite_none_right_eq_some, Option.some.injEq] at hstep
      obtain ⟨hdelivers, rfl⟩ := hstep
      obtain ⟨hsound, hphase⟩ := h.sound.headerCallback h.phase hdelivers line
      exact ⟨hsound, hphase⟩
  | data i bytes taken =>
      simp only [State.step, Option.ite_none_right_eq_some, Option.some.injEq] at hstep
      obtain ⟨hdelivers, rfl⟩ := hstep
      obtain ⟨hsound, hphase⟩ := h.sound.data h.phase hdelivers
      exact ⟨hsound, hphase⟩
  | infoRead opens =>
      obtain ⟨t, ht, -⟩ := Option.bind_eq_some_iff.mp hstep
      obtain ⟨t', ht', hbooks⟩ := h.infoRead ht opens
      obtain rfl := Option.some.inj (ht'.symm.trans hstep)
      exact hbooks

theorem books_of_reachable {C : State → Event → Prop} (h : downloadMachine.ReachableVia C s) : s.Books := by
  refine h.invariant (I := Books) ?_ ?_
  · rintro s rfl
    exact new_books
  · intro s e s' _ hs _ hstep
    exact hs.step hstep

/-! ## When the loop quits -/

theorem Books.failed_le_quits (h : s.Books) : s.failed ≤ s.quits ∨ s.quits = 1 := by
  cases h.phase with
  | awaiting h => exact .inl (Nat.le_of_eq (h.failed.trans h.quits.symm))
  | ranged opened h =>
      rw [h.quits]
      exact .inl (Nat.le_add_right _ _)
  | single h =>
      rw [h.failed]
      exact .inl (Nat.zero_le _)
  | ended h => exact .inr h.quits

/-- All are done, told by their number. -/
theorem Sound.length_done_iff (h : s.Sound) :
    s.curl.done.length = s.requests.length ↔ ∀ i < s.requests.length, i ∈ s.curl.done := by
  refine ⟨fun hlength i hi => h.all_done hlength hi, fun hall => ?_⟩
  have hsub : List.range s.requests.length ⊆ s.curl.done := fun i hi => hall i (List.mem_range.mp hi)
  have hle := (List.nodup_range.subperm hsub).length_le
  rw [List.length_range] at hle
  exact Nat.le_antisymm h.length_done_le hle

theorem Books.quits_iff (h : s.Books) (hopened : s.failed = 0) :
    s.quits ≤ 1 ∧ (s.quits = 1 ↔ ∀ i < s.requests.length, i ∈ s.curl.done) := by
  rw [← h.sound.length_done_iff]
  have hle := h.sound.length_done_le
  cases h.phase with
  | awaiting h =>
      rw [h.quits, h.done, h.requests]
      decide
  | ranged opened h =>
      have hcount : s.requests.length = kConcurrent + 1 := by
        rw [h.requests_length, ← h.count, hopened]
      rw [h.quits, hopened, hcount]
      split
      · rename_i hall
        simp [hall]
      · rename_i hsome
        simp [hsome]
  | single h =>
      rw [h.quits, h.requests]
      split
      · rename_i hall
        simp [hall]
      · rename_i hsome
        simp [hsome]
  | ended h =>
      have hpos := List.length_pos_of_mem h.header
      rw [h.requests] at hle ⊢
      rw [h.quits]
      exact ⟨Nat.le_refl 1, iff_of_true rfl (Nat.le_antisymm hle hpos)⟩

/-- **The loop quits when everything is done.** In every run of a download, whatever the server answers, in
    whatever order the transfers go on and finish, and whichever files can be opened: no byte is written
    to a file that is closed, and no callback of `done` gets stuck; if all files could be opened, the
    loop has been told to quit exactly when every request has been reported, and once; and it is never left
    with nothing running and nothing to tell it to quit. -/
theorem quits_when_done (h : downloadMachine.Reachable s) :
    s.crashed = false ∧
      (∀ opens, (s.onCurl .infoRead).isSome = true → (s.step (.infoRead opens)).isSome = true) ∧
      (s.failed = 0 → s.quits ≤ 1 ∧ (s.quits = 1 ↔ ∀ i < s.requests.length, i ∈ s.curl.done)) ∧
      (s.curl.stage = .idle → s.curl.curl.curlm_.running = [] → 0 < s.quits) := by
  have hbooks := books_of_reachable h
  refine ⟨hbooks.sound.crashed, ?_, hbooks.quits_iff, ?_⟩
  · intro opens hread
    obtain ⟨t, ht⟩ := Option.isSome_iff_exists.mp hread
    obtain ⟨s', hs', -⟩ := hbooks.infoRead ht opens
    rw [hs']
    rfl
  · intro hidle hnone
    -- nothing runs, so everything has been reported
    have hall : ∀ i < s.requests.length, i ∈ s.curl.done := by
      intro i hi
      rw [hbooks.sound.made] at hi
      exact (hbooks.sound.kept.reported hidle hnone hi).elim id (hbooks.sound.destroyed i)
    rcases Nat.eq_zero_or_pos s.failed with hopened | hsome
    · have hone := (hbooks.quits_iff hopened).2.mpr hall
      exact hone ▸ Nat.one_pos
    · rcases hbooks.failed_le_quits with hle | hone
      · exact Nat.lt_of_lt_of_le hsome hle
      · exact hone ▸ Nat.one_pos

/-- A file in four pieces; the first one to finish is masked by those that were added. -/
def inPieces : List Event :=
  [.callback .onTimer, .header 0 acceptRanges,
   .header 0 (contentLength ++ [' ', '1', '6', '3', '8', '7', '\r', '\n'].map Char.toUInt8), .finish 0,
   .actionReturns false, .checkFinish, .infoRead fun _ => true, .infoRead fun _ => true,
   .callback (.onRead 7), .data 3 [1, 2] 1, .finish 3, .actionReturns false, .checkFinish,
   .callback (.onRead 8), .data 1 [3] 1, .finish 1, .finish 4, .finish 2, .actionReturns false, .checkFinish,
   .infoRead fun _ => true, .destroy 3, .infoRead fun _ => true, .infoRead fun _ => true,
   .infoRead fun _ => true, .infoRead fun _ => true]

theorem quits_when_done_inPieces :
    ∃ s, downloadMachine.run State.new inPieces = some s ∧ s.requests.length = 5 ∧ s.quits = 1 ∧
      ∀ i < 5, i ∈ s.curl.done := by
  have hrun : (downloadMachine.run State.new inPieces).map (fun s =>
      (s.requests.length, s.failed, s.quits)) = some (5, 0, 1) := by decide +kernel
  obtain ⟨s, hs, hvalues⟩ := Option.map_eq_some_iff.mp hrun
  simp only [Prod.mk.injEq] at hvalues
  obtain ⟨hlength, hopened, hquits⟩ := hvalues
  have hreach : downloadMachine.Reachable s := Machine.run_reachable rfl hs
  have hall := ((quits_when_done hreach).2.2.1 hopened).2.mp hquits
  rw [hlength] at hall
  exact ⟨s, hs, hlength, hquits, hall⟩

end State

end DownloadRun

end Simplev
