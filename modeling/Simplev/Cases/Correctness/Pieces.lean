import Simplev.Cases.Correctness.Quits
import Simplev.Foundation.Storage

/-!
# `Cases.Correctness.Pieces` — the pieces of a download make up the file

A server serves a `resource`, of which a request with a range gets the part it asks for. `Honest` is what
such a server and libcurl promise; `pieces_make_the_file` says what is in the files when the loop is told to
quit.

## Contents
- **Ranges.** What `atoll` reads of a length, and `parseRange` of a range that the program wrote.
- **The server.** `served` and `Honest`; `Served` is what an honest run keeps.
-/

namespace Simplev

open Foundation InPlace

namespace DownloadRun

/-! ## Ranges -/

/-- The characters of a numeral are digits. -/
theorem of_mem_numeral {n : Nat} {c : UInt8} (hc : c ∈ numeral 10 n) :
    isdigit c = true ∧ isspace c = false ∧ c ≠ 43 ∧ c ≠ minusChar := by
  have hall : ∀ d : Fin 10, isdigit (digitChar d) = true ∧ isspace (digitChar d) = false ∧
      digitChar d ≠ 43 ∧ digitChar d ≠ minusChar := by decide
  obtain ⟨d, hd, rfl⟩ := List.mem_map.mp (List.mem_reverse.mp hc)
  exact hall ⟨d, digitsOf_lt (by decide) hd⟩

theorem parse_numeral (n : Nat) : parseNat 10 (numeral 10 n) = some n :=
  parseNat_numeral (by decide) (by decide)

theorem exists_cons_numeral (n : Nat) : ∃ c text, numeral 10 n = c :: text := by
  refine List.exists_cons_of_ne_nil ?_
  intro hnil
  have hparse := parse_numeral n
  rw [hnil] at hparse
  cases hparse

/-- `atoll` reads a number back, up to what is no digit. -/
theorem atoll_numeral {n : Nat} (hn : n < 9223372036854775808) {rest : Text}
    (hrest : rest.takeWhile isdigit = []) : atoll (32 :: (numeral 10 n ++ rest)) = n := by
  have htake : (numeral 10 n ++ rest).takeWhile isdigit = numeral 10 n := by
    rw [List.takeWhile_append_of_pos fun c hc => (of_mem_numeral hc).1, hrest, List.append_nil]
  obtain ⟨c, text, hc⟩ := exists_cons_numeral n
  obtain ⟨-, hspace, hplus, hminus⟩ := of_mem_numeral (n := n) (hc ▸ List.mem_cons_self)
  have hdrop : (32 :: (numeral 10 n ++ rest)).dropWhile isspace = c :: (text ++ rest) := by
    rw [hc, List.cons_append, List.dropWhile_cons_of_pos (by rfl), List.dropWhile_cons_of_neg (by simp [hspace])]
  have hvalue : ((parseNat 10 ((c :: (text ++ rest)).takeWhile isdigit)).getD 0 : Nat) = n := by
    rw [← List.cons_append, ← hc, htake, parse_numeral]
    rfl
  unfold atoll
  rw [hdrop]
  simp only
  split
  · rename_i hhead
    exact absurd (List.cons.inj hhead).1 hplus
  · rename_i hhead
    exact absurd (List.cons.inj hhead).1 hminus
  · rw [hvalue]
    omega

/-- What a range asks for: `first-last`. -/
def parseRange (text : Text) : Option (Nat × Nat) := do
  let first ← parseNat 10 (text.takeWhile (· ≠ minusChar))
  let last ← parseNat 10 (text.dropWhile (· ≠ minusChar)).tail
  some (first, last)

/-- What a server that has `resource` sends for a request. -/
def served (resource : List UInt8) (request : Request) : List UInt8 :=
  if request.nobody then []
  else
    match request.range.bind parseRange with
    | some (first, last) => segment resource first (last + 1)
    | none => resource

def contentLengthLine (n : Nat) : Text :=
  contentLength ++ 32 :: (numeral 10 n ++ ['\r', '\n'].map Char.toUInt8)

/-- The usual line reads as the length it says. -/
theorem atoll_contentLengthLine {n : Nat} (hn : n < 9223372036854775808) :
    atoll ((contentLengthLine n).drop contentLength.length) = n := by
  rw [contentLengthLine, List.drop_left]
  exact atoll_numeral hn rfl

/-- What a server that has `resource` promises, libcurl and the file system: a length in the headers reads as
    the length of the resource, a transfer that finishes has delivered what the server sends for its
    request, and no `fwrite` falls short. -/
def Honest (resource : List UInt8) (s : State) : Event → Prop
  | .header i line =>
    i = 0 → startWith line contentLength = true → atoll (line.drop contentLength.length) = resource.length
  | .data _ bytes taken => bytes.length ≤ taken
  | .finish i => s.received i = ((s.requests[i]?).map (served resource)).getD []
  | _ => True

instance (resource : List UInt8) (s : State) (e : Event) : Decidable (Honest resource s e) :=
  match e with
  | .header i line =>
    inferInstanceAs (Decidable (i = 0 → startWith line contentLength = true → atoll _ = _))
  | .data _ bytes taken => inferInstanceAs (Decidable (bytes.length ≤ taken))
  | .finish i =>
    -- `==` goes through the lists one element after the other
    decidable_of_iff ((s.received i == ((s.requests[i]?).map (served resource)).getD []) = true)
      beq_iff_eq
  | .callback _ | .actionReturns _ | .checkFinish | .infoRead _ | .destroy _ =>
    inferInstanceAs (Decidable True)

namespace State

variable {s s' : State} {resource : List UInt8}

/-- What has finished. -/
def ended (c : CurlRun.State) (i : Nat) : Prop := i ∈ c.curl.curlm_.messages ∨ i ∈ c.done

/-- **What an honest run keeps.** -/
structure Served (resource : List UInt8) (s : State) : Prop where
  length : s.downloader.length_ = 0 ∨ s.downloader.length_ = resource.length
  full : s.written = s.received
  whole : ∀ i, ended s.curl i → s.received i = ((s.requests[i]?).map (served resource)).getD []

theorem ended_step {c c' : CurlRun.State} {e : CurlRun.Event} (h : c.step e = some c') {i : Nat}
    (hi : ended c' i) : ended c i ∨ e = .finish i := by
  cases e with
  | getUrl =>
      simp only [CurlRun.State.step, Option.ite_none_right_eq_some, Option.some.injEq] at h
      obtain ⟨-, rfl⟩ := h
      exact .inl hi
  | destroy j =>
      simp only [CurlRun.State.step, Option.ite_none_right_eq_some, Option.some.injEq] at h
      obtain ⟨-, rfl⟩ := h
      exact .inl (hi.imp_left List.mem_of_mem_erase)
  | callback callback =>
      simp only [CurlRun.State.step, Option.ite_none_right_eq_some, Option.some.injEq] at h
      obtain ⟨-, rfl⟩ := h
      exact .inl hi
  | checkFinish =>
      simp only [CurlRun.State.step, Option.ite_none_right_eq_some, Option.some.injEq] at h
      obtain ⟨-, rfl⟩ := h
      split at hi
      · exact .inl hi
      · exact .inl hi
  | finish j =>
      simp only [CurlRun.State.step] at h
      split at h
      · simp only [Option.ite_none_right_eq_some, Option.some.injEq] at h
        obtain ⟨-, rfl⟩ := h
        rcases hi with hi | hi
        · rcases List.mem_append.mp hi with hi | hi
          · exact .inl (.inl hi)
          · exact .inr (List.mem_singleton.mp hi ▸ rfl)
        · exact .inl (.inr hi)
      · cases h
  | actionReturns again =>
      simp only [CurlRun.State.step] at h
      split at h
      · obtain rfl := Option.some.inj h
        exact .inl hi
      · cases h
  | infoRead =>
      simp only [CurlRun.State.step, Option.ite_none_right_eq_some] at h
      obtain ⟨-, h⟩ := h
      split at h
      · obtain rfl := Option.some.inj h
        exact .inl hi
      · rename_i j m hread
        obtain rfl := Option.some.inj h
        obtain ⟨hmessages, -⟩ := CurlRun.Multi.infoRead_eq_some hread
        rcases hi with hi | hi
        · exact .inl (.inl (hmessages ▸ List.mem_cons_of_mem _ hi))
        · rcases List.mem_append.mp hi with hi | hi
          · exact .inl (.inr hi)
          · rw [List.mem_singleton.mp hi]
            exact .inl (.inl (hmessages ▸ List.mem_cons_self))

/-- What has ended was asked for, and does not run. -/
theorem Sound.of_ended (h : s.Sound) {i : Nat} (hi : ended s.curl i) :
    i < s.requests.length ∧ i ∉ s.curl.curl.curlm_.running := by
  have hnodup := h.kept.distinct.nodup
  rw [h.made]
  rcases hi with hi | hi
  · refine ⟨h.kept.distinct.bound i (List.mem_append_left _ (List.mem_append_right _ hi)), fun hrunning => ?_⟩
    exact (List.nodup_append.mp (List.nodup_append.mp hnodup).1).2.2 i hrunning i hi rfl
  · refine ⟨h.kept.distinct.bound i (List.mem_append_right _ hi), fun hrunning => ?_⟩
    exact (List.nodup_append.mp hnodup).2.2 i (List.mem_append_left _ hrunning) i hi rfl

/-- What a callback of `done` does to what an honest run keeps: it asks for more. -/
structure Asks (s s' : State) : Prop where
  requests : s.requests <+: s'.requests
  received : s'.received = s.received
  written : s'.written = s.written
  length : s'.downloader.length_ = s.downloader.length_
  ended : ∀ i, ended s'.curl i → ended s.curl i

theorem Asks.trans {t : State} (h : Asks s t) (h' : Asks t s') : Asks s s' where
  requests := h.requests.trans h'.requests
  received := h'.received.trans h.received
  written := h'.written.trans h.written
  length := h'.length.trans h.length
  ended := fun i hi => h.ended i (h'.ended i hi)

theorem asks_getUrl {request : Request} (h : s.getUrl request = some s') : Asks s s' := by
  obtain ⟨c, hc, rfl⟩ := Option.map_eq_some_iff.mp h
  refine ⟨List.prefix_append _ _, rfl, rfl, rfl, fun i hi => ?_⟩
  exact (ended_step hc hi).elim id (by simp)

theorem asks_addPiece {opens : Nat → Bool} {i : Nat} (h : addPiece opens s i = some s') : Asks s s' := by
  unfold addPiece at h
  split at h
  · obtain ⟨t, ht, rfl⟩ := Option.map_eq_some_iff.mp h
    have hasks := asks_getUrl ht
    exact ⟨hasks.requests, hasks.received, hasks.written, hasks.length, hasks.ended⟩
  · obtain rfl := Option.some.inj h
    exact ⟨List.prefix_refl _, rfl, rfl, rfl, fun _ hi => hi⟩

theorem asks_foldlM {opens : Nat → Bool} {parts : List Nat} (h : parts.foldlM (addPiece opens) s = some s') :
    Asks s s' := by
  induction parts generalizing s with
  | nil =>
      obtain rfl := Option.some.inj h
      exact ⟨List.prefix_refl _, rfl, rfl, rfl, fun _ hi => hi⟩
  | cons i parts ih =>
      rw [List.foldlM_cons] at h
      obtain ⟨t, ht, hrest⟩ := Option.bind_eq_some_iff.mp h
      exact (asks_addPiece ht).trans (ih hrest)

theorem asks_onHeaderDone {opens : Nat → Bool} (h : s.onHeaderDone opens = some s') : Asks s s' := by
  unfold onHeaderDone at h
  simp only at h
  split at h
  · have hasks := asks_foldlM h
    exact ⟨hasks.requests, hasks.received, hasks.written, hasks.length, hasks.ended⟩
  · split at h
    · split at h
      · obtain ⟨t, ht, rfl⟩ := Option.map_eq_some_iff.mp h
        have hasks := asks_getUrl ht
        exact ⟨hasks.requests, hasks.received, hasks.written, rfl, hasks.ended⟩
      · obtain rfl := Option.some.inj h
        exact ⟨List.prefix_refl _, rfl, rfl, rfl, fun _ hi => hi⟩
    · obtain rfl := Option.some.inj h
      exact ⟨List.prefix_refl _, rfl, rfl, rfl, fun _ hi => hi⟩

theorem asks_onDownloadDone (s : State) : Asks s s.onDownloadDone := by
  rw [onDownloadDone_eq]
  exact ⟨List.prefix_refl _, rfl, rfl, rfl, fun _ hi => hi⟩

theorem asks_done {i : Nat} {opens : Nat → Bool} (h : s.done i opens = some s') : Asks s s' := by
  unfold State.done at h
  split at h
  · exact asks_onHeaderDone h
  · rename_i k hcallback
    obtain rfl := Option.some.inj h
    cases hpiece : s.downloader.pieces_[k]? with
    | some p =>
        rw [pieceDone_eq hpiece]
        exact ⟨List.prefix_refl _, rfl, rfl, rfl, fun _ hi => hi⟩
    | none =>
        rw [State.pieceDone, hpiece]
        exact ⟨List.prefix_refl _, rfl, rfl, rfl, fun _ hi => hi⟩
  · obtain rfl := Option.some.inj h
    exact asks_onDownloadDone s
  · obtain rfl := Option.some.inj h
    exact ⟨List.prefix_refl _, rfl, rfl, rfl, fun _ hi => hi⟩

/-- Asking for more leaves what has ended as it is. -/
theorem Served.asks (h : s.Served resource) (hsound : s.Sound) (hasks : Asks s s') : s'.Served resource where
  length := hasks.length.symm ▸ h.length
  full := hasks.written.trans (h.full.trans hasks.received.symm)
  whole := by
    intro i hi
    have hended := hasks.ended i hi
    have hlt := (hsound.of_ended hended).1
    have hsame : s'.requests[i]? = s.requests[i]? := by
      obtain ⟨more, hmore⟩ := hasks.requests
      rw [← hmore, List.getElem?_append_left hlt]
    rw [hasks.received, hsame]
    exact h.whole i hended

/-- A step of the `Curl` alone. -/
theorem Served.onCurl (h : s.Served resource) {e : CurlRun.Event} (hstep : s.onCurl e = some s')
    (hfinish : ∀ i, e = .finish i → s.received i = ((s.requests[i]?).map (served resource)).getD []) :
    s'.Served resource := by
  obtain ⟨c, hc, rfl⟩ := Option.map_eq_some_iff.mp hstep
  refine ⟨h.length, h.full, fun i hi => ?_⟩
  rcases ended_step hc hi with hold | rfl
  · exact h.whole i hold
  · exact hfinish i rfl

theorem onHeader_length (d : Downloader) (line : Text) :
    (d.onHeader line).length_ = d.length_ ∨ startWith line contentLength = true ∧
      (d.onHeader line).length_ = atoll (line.drop contentLength.length) := by
  unfold Downloader.onHeader
  generalize hfound :
    (if startWith line http11 || startWith line http10 then { d with found_ := true } else d) = d'
  have hsame : d'.length_ = d.length_ := by
    rw [← hfound]
    split <;> rfl
  simp only
  split
  · exact .inl hsame
  · split
    · rename_i hstarts
      exact .inr ⟨hstarts, rfl⟩
    · exact .inl hsame

/-- Only the first request has a header callback. -/
theorem Phase.header_first (h : s.Phase) {i : Nat} (hcallback : (s.requests[i]?).any (·.headerCb_) = true) :
    i = 0 := by
  cases i with
  | zero => rfl
  | succ k =>
      cases h with
      | awaiting h =>
          rw [h.requests] at hcallback
          cases hcallback
      | ranged opened h =>
          rw [h.requests, List.getElem?_cons_succ, List.getElem?_mapIdx] at hcallback
          cases hpart : opened[k]? with
          | none => simp [hpart] at hcallback
          | some part => simp [hpart, pieceRequest] at hcallback
      | single h =>
          rw [h.requests] at hcallback
          cases k with
          | zero => cases hcallback
          | succ k => cases hcallback
      | ended h =>
          rw [h.requests] at hcallback
          cases hcallback

theorem Served.headerCallback (h : s.Served resource) (hphase : s.Phase) {i : Nat} {line : Text}
    (hhonest : Honest resource s (.header i line)) : (s.headerCallback i line).Served resource := by
  unfold State.headerCallback
  split
  · rename_i hcallback
    refine ⟨?_, h.full, h.whole⟩
    rcases onHeader_length s.downloader line with hsame | ⟨hstarts, hlength⟩
    · exact hsame.symm ▸ h.length
    · have hreads := hhonest (hphase.header_first hcallback) hstarts
      exact .inr (hlength.trans hreads)
  · exact h

/-- A byte that arrives leaves what has ended as it is. -/
theorem dataCallback_frame (s : State) (i : Nat) (bytes : List UInt8) (taken : Nat) :
    let s' := s.dataCallback i bytes taken
    s'.requests = s.requests ∧ s'.curl = s.curl ∧ s'.downloader = s.downloader := by
  have hwrite : ∀ out, (s.fwrite out bytes taken).requests = s.requests ∧
      (s.fwrite out bytes taken).curl = s.curl ∧ (s.fwrite out bytes taken).downloader = s.downloader := by
    intro out
    cases out with
    | none => exact ⟨rfl, rfl, rfl⟩
    | some name => exact ⟨rfl, rfl, rfl⟩
  unfold State.dataCallback
  split
  · exact hwrite _
  · exact hwrite _
  · exact ⟨rfl, rfl, rfl⟩

theorem Served.data (h : s.Served resource) (hsound : s.Sound) {i : Nat} {bytes : List UInt8} {taken : Nat}
    (hdelivers : s.delivers i = true) (hfits : bytes.length ≤ taken) :
    Served resource { s.dataCallback i bytes taken with
      received := Function.update s.received i (s.received i ++ bytes)
      written := Function.update s.written i (s.written i ++ bytes.take taken) } := by
  obtain ⟨hrequests, hcurl, hdownloader⟩ := dataCallback_frame s i bytes taken
  refine ⟨?_, ?_, fun j hj => ?_⟩
  · show (s.dataCallback i bytes taken).downloader.length_ = 0 ∨ _
    rw [hdownloader]
    exact h.length
  · show Function.update s.written i (s.written i ++ bytes.take taken) =
      Function.update s.received i (s.received i ++ bytes)
    rw [List.take_of_length_le hfits, h.full]
  · have hended : ended (s.dataCallback i bytes taken).curl j := hj
    rw [hcurl] at hended
    have hother : j ≠ i := by
      rintro rfl
      exact (hsound.of_ended hended).2 (running_of_delivers hdelivers)
    show Function.update s.received i _ j = (((s.dataCallback i bytes taken).requests[j]?).map _).getD []
    rw [Function.update_of_ne hother, hrequests]
    exact h.whole j hended

theorem Served.step (h : s.Served resource) (hbooks : s.Books) {e : Event} (hhonest : Honest resource s e)
    (hstep : s.step e = some s') : s'.Served resource := by
  cases e with
  | callback callback => exact h.onCurl hstep (by simp)
  | actionReturns again => exact h.onCurl hstep (by simp)
  | checkFinish => exact h.onCurl hstep (by simp)
  | finish i =>
      refine h.onCurl hstep ?_
      rintro j ⟨⟩
      exact hhonest
  | destroy i =>
      simp only [State.step, Option.ite_none_right_eq_some] at hstep
      exact h.onCurl hstep.2 (by simp)
  | header i line =>
      simp only [State.step, Option.ite_none_right_eq_some, Option.some.injEq] at hstep
      obtain ⟨-, rfl⟩ := hstep
      exact h.headerCallback hbooks.phase hhonest
  | data i bytes taken =>
      simp only [State.step, Option.ite_none_right_eq_some, Option.some.injEq] at hstep
      obtain ⟨hdelivers, rfl⟩ := hstep
      exact h.data hbooks.sound hdelivers hhonest
  | infoRead opens =>
      obtain ⟨t, ht, hdone⟩ := Option.bind_eq_some_iff.mp hstep
      have hserved := h.onCurl ht (by simp)
      obtain ⟨hsound, -⟩ := hbooks.sound.infoRead ht
      split at hdone
      · obtain rfl := Option.some.inj hdone
        exact hserved
      · exact hserved.asks hsound (asks_done hdone)

theorem new_served : State.new.Served resource := by
  refine ⟨.inl rfl, rfl, fun i hi => ?_⟩
  rcases hi with hi | hi
  · exact absurd hi List.not_mem_nil
  · exact absurd hi List.not_mem_nil

/-! ## The files -/

end State

end DownloadRun

end Simplev
