import Mathlib.Data.List.Basic
import Mathlib.Data.List.Nodup
import Simplev.Cases.CurlSockets

/-!
# `Cases.Correctness.Sockets` — the loop watches what libcurl asked for (`Curl.cc`)

`Wired` ties the three parties together: every socket of libcurl has a Channel, held by the request of its
handle, that watches for what was asked last, and every other Channel has been stopped and waits in a functor.
`Safe` is about the objects a running handler needs. Both hold as long as no assert has failed, and
`Fits` says exactly when one does.
-/

namespace Simplev

open Foundation

namespace CurlSockets

/-- The Channel watches for what libcurl asked. -/
structure Watches (ch : Channel) (x : Socket) : Prop where
  fd : ch.fd_ = x.fd
  active : ch.active = true
  reading : ch.reading = true
  writing : ch.writing = x.what.out

/-- What is watched, apart from whether the handler runs. -/
def TiedChannel.still (t : TiedChannel) : TiedChannel := { t with channel := t.channel.endEvent }

theorem TiedChannel.watches_congr {t t' : TiedChannel} (h : t'.still = t.still) {x : Socket}
    (hw : Watches t.channel x) : Watches t'.channel x := by
  obtain ⟨⟨fd, reading, writing, active, eventHandling⟩, tie⟩ := t
  obtain ⟨⟨fd', reading', writing', active', eventHandling'⟩, tie'⟩ := t'
  simp only [still, Channel.endEvent, TiedChannel.mk.injEq, Channel.mk.injEq] at h
  obtain ⟨⟨rfl, rfl, rfl, rfl, -⟩, rfl⟩ := h
  exact ⟨hw.fd, hw.active, hw.reading, hw.writing⟩

theorem TiedChannel.still_inj {t t' : TiedChannel} (h : t'.still = t.still) :
    t'.tie_ = t.tie_ ∧ t'.channel.active = t.channel.active := by
  have htie := congrArg TiedChannel.tie_ h
  have hactive := congrArg (fun t => t.channel.active) h
  exact ⟨htie, hactive⟩

namespace State

variable {s s' : State}

/-- The Channels that only a functor keeps. -/
def retired (s : State) : List Nat := s.pendingFunctors_ ++ s.functors.getD []

/-- **Sockets, requests and Channels belong together.** -/
structure Wired (s : State) : Prop where
  one : ∀ x ∈ s.sockets, ∀ y ∈ s.sockets, x.fd = y.fd ∨ x.easy = y.easy → x = y
  socket : ∀ x ∈ s.sockets, ∃ c t, x.socketp = some c ∧ s.getChannel x.easy = some c ∧
    s.channels c = some t ∧ t.tie_ = x.easy ∧ Watches t.channel x
  request : ∀ i c, s.getChannel i = some c → ∃ x ∈ s.sockets, x.easy = i
  channel : ∀ c t, s.channels c = some t →
    c < s.numChannels ∧ (s.getChannel t.tie_ = some c ∨ c ∈ s.retired)
  retired : ∀ c ∈ s.retired, ∃ t, s.channels c = some t ∧ t.channel.active = false
  nodup : s.retired.Nodup

theorem new_wired : State.new.Wired where
  one _ hx := absurd hx List.not_mem_nil
  socket _ hx := absurd hx List.not_mem_nil
  request _ _ h := by cases h
  channel _ _ h := by cases h
  retired _ hc := absurd hc List.not_mem_nil
  nodup := List.nodup_nil

/-- Nothing that `Wired` speaks of has changed. -/
theorem Wired.frame (h : s.Wired) (hchan : ∀ i, s'.getChannel i = s.getChannel i)
    (hchannels : ∀ c, (s'.channels c).map TiedChannel.still = (s.channels c).map TiedChannel.still)
    (hnum : s'.numChannels = s.numChannels) (hsockets : s'.sockets = s.sockets)
    (hretired : s'.retired = s.retired) : s'.Wired := by
  have hthere : ∀ c t, s.channels c = some t → ∃ t', s'.channels c = some t' ∧ t'.still = t.still := by
    intro c t ht
    have hmap := hchannels c
    rw [ht, Option.map_some, Option.map_eq_some_iff] at hmap
    exact hmap
  refine ⟨hsockets ▸ h.one, ?_, ?_, ?_, ?_, hretired ▸ h.nodup⟩
  · intro x hx
    obtain ⟨c, t, hp, hc, ht, htie, hw⟩ := h.socket x (hsockets ▸ hx)
    obtain ⟨t', ht', hstill⟩ := hthere c t ht
    exact ⟨c, t', hp, (hchan _).trans hc, ht', (TiedChannel.still_inj hstill).1.trans htie,
      TiedChannel.watches_congr hstill hw⟩
  · intro i c hc
    rw [hsockets]
    exact h.request i c ((hchan i).symm.trans hc)
  · intro c t' ht'
    have hmap := hchannels c
    rw [ht', Option.map_some, eq_comm, Option.map_eq_some_iff] at hmap
    obtain ⟨t, ht, hstill⟩ := hmap
    obtain ⟨hlt, hkept⟩ := h.channel c t ht
    rw [hnum, hretired, hchan, ← (TiedChannel.still_inj hstill).1]
    exact ⟨hlt, hkept⟩
  · intro c hc
    obtain ⟨t, ht, hactive⟩ := h.retired c (hretired ▸ hc)
    obtain ⟨t', ht', hstill⟩ := hthere c t ht
    exact ⟨t', ht', (TiedChannel.still_inj hstill).2.trans hactive⟩

/-- A request has a Channel as long as libcurl has a socket for its handle. -/
theorem Wired.unused_iff (h : s.Wired) {i : Nat} : s.Unused i ↔ s.getChannel i = none := by
  constructor
  · intro hunused
    cases hc : s.getChannel i with
    | none => rfl
    | some c =>
        obtain ⟨x, hx, hi⟩ := h.request i c hc
        exact absurd hi (hunused x hx)
  · rintro hnone x hx rfl
    obtain ⟨c, t, -, hc, -⟩ := h.socket x hx
    rw [hnone] at hc
    cases hc

/-- Two handles have two Channels. -/
theorem Wired.inj (h : s.Wired) {i j c : Nat} (hi : s.getChannel i = some c)
    (hj : s.getChannel j = some c) : i = j := by
  obtain ⟨x, hx, rfl⟩ := h.request i c hi
  obtain ⟨y, hy, rfl⟩ := h.request j c hj
  obtain ⟨c₁, t₁, -, hc₁, ht₁, htie₁, -⟩ := h.socket x hx
  obtain ⟨c₂, t₂, -, hc₂, ht₂, htie₂, -⟩ := h.socket y hy
  obtain rfl := Option.some.inj (hi.symm.trans hc₁)
  obtain rfl := Option.some.inj (hj.symm.trans hc₂)
  obtain rfl := Option.some.inj (ht₁.symm.trans ht₂)
  exact htie₁.symm.trans htie₂

/-- The Channel of a request is not one of those that only a functor keeps. -/
theorem Wired.not_retired (h : s.Wired) {i c : Nat} (hc : s.getChannel i = some c) : c ∉ s.retired := by
  intro hretired
  obtain ⟨x, hx, rfl⟩ := h.request i c hc
  obtain ⟨c₁, t₁, -, hc₁, ht₁, -, hw⟩ := h.socket x hx
  obtain rfl := Option.some.inj (hc.symm.trans hc₁)
  obtain ⟨t, ht, hidle⟩ := h.retired c hretired
  obtain rfl := Option.some.inj (ht₁.symm.trans ht)
  rw [hw.active] at hidle
  cases hidle

/-! ## A call of `socketCallback` -/

variable {easy fd c : Nat} {what : Poll} {x : Socket} {r : Request} {t : TiedChannel}

theorem socket_none (h : s.socket fd = none) : ∀ x ∈ s.sockets, x.fd ≠ fd := by
  intro x hx heq
  exact absurd (beq_iff_eq.mpr heq) (List.find?_eq_none.mp h x hx)

theorem socket_some (h : s.socket fd = some x) : x ∈ s.sockets ∧ x.fd = fd := by
  unfold socket at h
  have hfd := List.find?_some h
  exact ⟨List.mem_of_find?_eq_some h, beq_iff_eq.mp hfd⟩

theorem getChannel_eq {i : Nat} (h : s.requests i = some r) : s.getChannel i = r.channel_ := by
  unfold getChannel
  rw [h]
  rfl

theorem setSocket_of_ne {xs : List Socket} (h : ∀ x ∈ xs, x.fd ≠ fd) (f : Socket → Socket) :
    (xs.map fun x => if x.fd = fd then f x else x) = xs := by
  refine (List.map_congr_left fun x hx => if_neg (h x hx)).trans ?_
  exact List.map_id' xs

/-- libcurl asks for a descriptor. -/
theorem callSocketFunction_new (hsocket : s.socket fd = none) (hr : s.requests easy = some r)
    (hnone : r.channel_ = none) (hwhat : what ≠ .pollRemove) :
    s.callSocketFunction easy fd what =
      { s with
        requests := Function.update s.requests easy (some { r with channel_ := some s.numChannels })
        channels := Function.update s.channels s.numChannels
          (some ⟨⟨fd, true, what.out, true, false⟩, easy⟩)
        numChannels := s.numChannels + 1
        sockets := s.sockets ++ [⟨fd, easy, what, some s.numChannels⟩] } := by
  unfold callSocketFunction
  rw [hsocket]
  unfold socketCallback
  simp only [hr, hwhat, if_false, setChannel, reset, hnone, assert_true]
  unfold poll
  rw [assert_true (by simp [getChannel, assign, setSocket, update, setRequest])]
  have hsockets := setSocket_of_ne (socket_none hsocket) fun x => { x with socketp := some s.numChannels }
  cases hout : what.out <;>
    simp [update, assign, setSocket, setRequest, hsockets, Channel.new, Channel.enableReading,
      Channel.enableWriting, Channel.disableWriting]

/-- It asks for something else. -/
theorem callSocketFunction_poll (hsocket : s.socket fd = some x) (hr : s.requests easy = some r)
    (hp : x.socketp = some c) (hc : r.channel_ = some c) (ht : s.channels c = some t)
    (hwhat : what ≠ .pollRemove) :
    s.callSocketFunction easy fd what =
      { s.setSocket fd fun x => { x with what := what } with
        channels := Function.update s.channels c
          (some { t with channel := { t.channel with writing := what.out } }) } := by
  unfold callSocketFunction
  simp only [hsocket, hwhat, if_false]
  have hr' : (s.setSocket fd fun x => { x with what := what }).requests easy = some r := hr
  unfold socketCallback
  simp only [hr', hwhat, if_false, hp]
  unfold poll
  rw [assert_true ((getChannel_eq hr').trans hc)]
  cases hout : what.out <;>
    simp [update, setSocket, ht, Channel.enableWriting, Channel.disableWriting]

/-- It lets the descriptor go. -/
theorem callSocketFunction_remove (hsocket : s.socket fd = some x) (hr : s.requests easy = some r)
    (hp : x.socketp = some c) (hc : r.channel_ = some c) (ht : s.channels c = some t) :
    s.callSocketFunction easy fd .pollRemove =
      { s with
        requests := Function.update s.requests easy (some { r with channel_ := none })
        channels := Function.update s.channels c (some { t with channel := t.channel.disableAll.stop })
        pendingFunctors_ := s.pendingFunctors_ ++ [c]
        sockets := s.sockets.filter (·.fd ≠ fd) } := by
  have hfilter : ∀ xs : List Socket,
      (xs.map fun x => if x.fd = fd then { x with socketp := none } else x).filter (·.fd ≠ fd) =
        xs.filter (·.fd ≠ fd) := by
    intro xs
    induction xs with
    | nil => rfl
    | cons y ys ih =>
        by_cases hy : y.fd = fd
        · simpa [hy] using ih
        · simpa [hy] using ih
  have hremoved : (s.update c Channel.disableAll).remove c =
      { s with
        channels := Function.update s.channels c
          (some { t with channel := t.channel.disableAll.stop }) } := by
    unfold remove
    simp only [update_self ht]
    have hnone : t.channel.disableAll.isNoneEvent = true := rfl
    rw [assert_true hnone]
    simp [update, ht]
  unfold callSocketFunction
  simp only [hsocket, if_true]
  unfold socketCallback
  simp only [hr, if_true]
  rw [assert_true (hc.trans hp.symm)]
  unfold removeChannel
  simp only [hc, hremoved]
  simp only [assign, setSocket, setRequest, hfilter]

/-- What a request's `channel_` is after an update of the requests. -/
theorem getChannel_update {s' : State} {i j : Nat} {r : Request}
    (h : s'.requests = Function.update s.requests i (some r)) :
    s'.getChannel j = if j = i then r.channel_ else s.getChannel j := by
  unfold getChannel
  rw [h]
  by_cases hji : j = i
  · rw [if_pos hji, hji, Function.update_self]
    rfl
  · rw [if_neg hji, Function.update_of_ne hji]

theorem Wired.new (h : s.Wired) (hsocket : s.socket fd = none) (hr : s.requests easy = some r)
    (hunused : s.Unused easy) (hwhat : what ≠ .pollRemove) :
    (s.callSocketFunction easy fd what).Wired := by
  have hnone : r.channel_ = none := (getChannel_eq hr).symm.trans (h.unused_iff.mp hunused)
  rw [callSocketFunction_new hsocket hr hnone hwhat]
  have hfd := socket_none hsocket
  -- the new Channel is none of those that exist
  have hfresh : ∀ c t, s.channels c = some t → c ≠ s.numChannels :=
    fun c t ht => Nat.ne_of_lt (h.channel c t ht).1
  have hold : ∀ x ∈ s.sockets, x.fd ≠ fd ∧ x.easy ≠ easy := fun x hx => ⟨hfd x hx, hunused x hx⟩
  refine ⟨?_, ?_, ?_, ?_, ?_, h.nodup⟩
  · intro x hx y hy hxy
    rcases List.mem_append.mp hx with hx | hx
    · rcases List.mem_append.mp hy with hy | hy
      · exact h.one x hx y hy hxy
      · rw [List.mem_singleton.mp hy] at hxy
        exact (hxy.elim (hold x hx).1 (hold x hx).2).elim
    · rcases List.mem_append.mp hy with hy | hy
      · rw [List.mem_singleton.mp hx] at hxy
        exact (hxy.elim (fun heq => (hold y hy).1 heq.symm) (fun heq => (hold y hy).2 heq.symm)).elim
      · rw [List.mem_singleton.mp hx, List.mem_singleton.mp hy]
  · intro x hx
    rcases List.mem_append.mp hx with hx | hx
    · obtain ⟨c, t, hp, hc, ht, htie, hw⟩ := h.socket x hx
      refine ⟨c, t, hp, ?_, ?_, htie, hw⟩
      · rw [getChannel_update rfl, if_neg (hold x hx).2, hc]
      · exact (Function.update_of_ne (hfresh c t ht) _ _).trans ht
    · obtain rfl := List.mem_singleton.mp hx
      refine ⟨s.numChannels, _, rfl, ?_, Function.update_self _ _ _, rfl, ⟨rfl, rfl, rfl, rfl⟩⟩
      rw [getChannel_update rfl, if_pos rfl]
  · intro i c hc
    rw [getChannel_update rfl] at hc
    by_cases hi : i = easy
    · exact ⟨_, List.mem_append_right _ (List.mem_singleton_self _), hi.symm⟩
    · rw [if_neg hi] at hc
      obtain ⟨x, hx, hxi⟩ := h.request i c hc
      exact ⟨x, List.mem_append_left _ hx, hxi⟩
  · intro c t ht
    change Function.update s.channels s.numChannels _ c = some t at ht
    rw [getChannel_update rfl]
    by_cases hc : c = s.numChannels
    · subst hc
      rw [Function.update_self, Option.some.injEq] at ht
      subst ht
      exact ⟨Nat.lt_succ_self _, .inl (if_pos rfl)⟩
    · rw [Function.update_of_ne hc] at ht
      obtain ⟨hlt, hkept⟩ := h.channel c t ht
      refine ⟨Nat.lt_succ_of_lt hlt, hkept.imp_left fun hkept => ?_⟩
      rw [if_neg, hkept]
      intro heq
      rw [heq, h.unused_iff.mp hunused] at hkept
      cases hkept
  · intro c hc
    obtain ⟨t, ht, hidle⟩ := h.retired c hc
    exact ⟨t, (Function.update_of_ne (hfresh c t ht) _ _).trans ht, hidle⟩

/-- The Channel of a socket, with the request that has it. -/
theorem Wired.of_socket (h : s.Wired) (hsocket : s.socket fd = some x) (hx : x.easy = easy)
    (hr : s.requests easy = some r) :
    ∃ c t, x.socketp = some c ∧ r.channel_ = some c ∧ s.getChannel easy = some c ∧
      s.channels c = some t ∧ t.tie_ = easy ∧ Watches t.channel x := by
  obtain ⟨hmem, -⟩ := socket_some hsocket
  obtain ⟨c, t, hp, hc, ht, htie, hw⟩ := h.socket x hmem
  rw [hx] at hc htie
  exact ⟨c, t, hp, (getChannel_eq hr).symm.trans hc, hc, ht, htie, hw⟩

/-- Two sockets with one Channel are one. -/
theorem Wired.socket_inj (h : s.Wired) {y : Socket} (hx : x ∈ s.sockets) (hy : y ∈ s.sockets)
    (hc : s.getChannel x.easy = some c) (hc' : s.getChannel y.easy = some c) : x = y :=
  h.one x hx y hy (.inr (h.inj hc hc'))

theorem Wired.poll (h : s.Wired) (hsocket : s.socket fd = some x) (hx : x.easy = easy)
    (hr : s.requests easy = some r) (hwhat : what ≠ .pollRemove) :
    (s.callSocketFunction easy fd what).Wired := by
  obtain ⟨c, t, hp, hrc, hc, ht, htie, hw⟩ := h.of_socket hsocket hx hr
  obtain ⟨hmem, hfd⟩ := socket_some hsocket
  rw [callSocketFunction_poll hsocket hr hp hrc ht hwhat]
  have hsame : ∀ y, (if y.fd = fd then { y with what := what } else y : Socket).fd = y.fd ∧
      (if y.fd = fd then { y with what := what } else y : Socket).easy = y.easy := by
    intro y
    by_cases hy : y.fd = fd
    · rw [if_pos hy]
      exact ⟨rfl, rfl⟩
    · rw [if_neg hy]
      exact ⟨rfl, rfl⟩
  refine ⟨?_, ?_, ?_, ?_, ?_, h.nodup⟩
  · intro y' hy' z' hz' hyz
    obtain ⟨y, hy, rfl⟩ := List.mem_map.mp hy'
    obtain ⟨z, hz, rfl⟩ := List.mem_map.mp hz'
    rw [(hsame y).1, (hsame z).1, (hsame y).2, (hsame z).2] at hyz
    rw [h.one y hy z hz hyz]
  · intro y' hy'
    obtain ⟨y, hy, rfl⟩ := List.mem_map.mp hy'
    by_cases hyfd : y.fd = fd
    · obtain rfl := h.one y hy x hmem (.inl (hyfd.trans hfd.symm))
      rw [if_pos hyfd]
      exact ⟨c, _, hp, hx ▸ hc, Function.update_self _ _ _, htie.trans hx.symm,
        ⟨hw.fd, hw.active, hw.reading, rfl⟩⟩
    · rw [if_neg hyfd]
      obtain ⟨d, u, hq, hd, hu, hutie, huw⟩ := h.socket y hy
      refine ⟨d, u, hq, hd, (Function.update_of_ne ?_ _ _).trans hu, hutie, huw⟩
      rintro rfl
      have heq := h.socket_inj hy hmem hd (hx ▸ hc)
      exact hyfd (heq ▸ hfd)
  · intro i d hd
    obtain ⟨y, hy, hyi⟩ := h.request i d hd
    exact ⟨_, List.mem_map_of_mem hy, (hsame y).2.trans hyi⟩
  · intro d u hu
    change Function.update s.channels c _ d = some u at hu
    by_cases hdc : d = c
    · subst hdc
      rw [Function.update_self, Option.some.injEq] at hu
      subst hu
      exact h.channel d t ht
    · rw [Function.update_of_ne hdc] at hu
      exact h.channel d u hu
  · intro d hd
    obtain ⟨u, hu, hidle⟩ := h.retired d hd
    refine ⟨u, (Function.update_of_ne ?_ _ _).trans hu, hidle⟩
    rintro rfl
    exact h.not_retired hc hd

theorem Wired.remove (h : s.Wired) (hsocket : s.socket fd = some x) (hx : x.easy = easy)
    (hr : s.requests easy = some r) (hfunctors : s.functors = none) :
    (s.callSocketFunction easy fd .pollRemove).Wired := by
  obtain ⟨c, t, hp, hrc, hc, ht, htie, hw⟩ := h.of_socket hsocket hx hr
  obtain ⟨hmem, hfd⟩ := socket_some hsocket
  rw [callSocketFunction_remove hsocket hr hp hrc ht]
  have hretired : ∀ d, d ∈ s.pendingFunctors_ ++ [c] ++ s.functors.getD [] ↔ d ∈ s.retired ∨ d = c := by
    intro d
    unfold State.retired
    rw [hfunctors]
    simp
  have hother : ∀ y ∈ s.sockets, y.fd ≠ fd → y.easy ≠ easy := fun y hy hne heq =>
    hne ((congrArg Socket.fd (h.one y hy x hmem (.inr (heq.trans hx.symm)))).trans hfd)
  refine ⟨?_, ?_, ?_, ?_, ?_, ?_⟩
  · exact fun y hy z hz => h.one y (List.mem_of_mem_filter hy) z (List.mem_of_mem_filter hz)
  · intro y hy'
    obtain ⟨hy, hkept⟩ := List.mem_filter.mp hy'
    have hyfd := of_decide_eq_true hkept
    obtain ⟨d, u, hq, hd, hu, hutie, huw⟩ := h.socket y hy
    refine ⟨d, u, hq, ?_, (Function.update_of_ne ?_ _ _).trans hu, hutie, huw⟩
    · rw [getChannel_update rfl, if_neg (hother y hy hyfd), hd]
    · rintro rfl
      exact hother y hy hyfd (h.inj hd hc)
  · intro i d hd
    rw [getChannel_update rfl] at hd
    by_cases hi : i = easy
    · rw [if_pos hi] at hd
      cases hd
    · rw [if_neg hi] at hd
      obtain ⟨y, hy, hyi⟩ := h.request i d hd
      refine ⟨y, List.mem_filter.mpr ⟨hy, decide_eq_true fun hyfd => hi ?_⟩, hyi⟩
      have heq := h.one y hy x hmem (.inl (hyfd.trans hfd.symm))
      rw [← hyi, heq, hx]
  · intro d u hu
    change Function.update s.channels c _ d = some u at hu
    rw [getChannel_update rfl]
    by_cases hdc : d = c
    · subst hdc
      exact ⟨(h.channel d t ht).1, .inr ((hretired d).mpr (.inr rfl))⟩
    · rw [Function.update_of_ne hdc] at hu
      obtain ⟨hlt, hkept⟩ := h.channel d u hu
      refine ⟨hlt, ?_⟩
      rcases hkept with hkept | hkept
      · refine .inl ?_
        rw [if_neg, hkept]
        intro heq
        rw [heq, hc] at hkept
        exact hdc (Option.some.inj hkept).symm
      · exact .inr ((hretired d).mpr (.inl hkept))
  · intro d hd'
    rcases (hretired d).mp hd' with hd | rfl
    · obtain ⟨u, hu, hidle⟩ := h.retired d hd
      refine ⟨u, (Function.update_of_ne ?_ _ _).trans hu, hidle⟩
      rintro rfl
      exact h.not_retired hc hd
    · exact ⟨_, Function.update_self _ _ _, rfl⟩
  · have hnot := h.not_retired hc
    have hnodup := h.nodup
    unfold State.retired at hnot hnodup ⊢
    rw [hfunctors] at hnot hnodup ⊢
    simp only [Option.getD_none, List.append_nil] at hnot hnodup ⊢
    exact List.nodup_append.mpr ⟨hnodup, List.nodup_singleton c,
      fun d hd e he heq => hnot ((List.mem_singleton.mp he) ▸ heq ▸ hd)⟩

/-! ## The asserts -/

/-- The asserts of `socketCallback` compare the request's Channel with libcurl's. -/
theorem socketCallback_met {socketp : Option Nat} (hr : s.requests easy = some r)
    (hok : (s.socketCallback easy fd what socketp).failed = []) : r.channel_ = socketp := by
  unfold socketCallback at hok
  simp only [hr] at hok
  split at hok
  · exact (assert_failed.mp (removeChannel_failed hok)).2
  · split at hok
    · have hset : (s.setChannel easy fd r).failed = [] := (poll_failed hok).1
      exact (setChannel_failed hset).2
    · exact (getChannel_eq hr).symm.trans (poll_failed hok).2

theorem Wired.fits_socketCallback (h : s.Wired) (hr : s.requests easy = some r)
    (hok : (s.callSocketFunction easy fd what).failed = []) : s.Fits (.socketCallback easy fd what) := by
  have hmet : r.channel_ = (s.socket fd).bind Socket.socketp := by
    unfold callSocketFunction at hok
    split at hok
    · rename_i hsocket
      rw [hsocket]
      exact socketCallback_met (s := { s with sockets := s.sockets ++ [_] }) hr hok
    · rename_i x hsocket
      rw [hsocket]
      split at hok
      · exact socketCallback_met (s := s) hr hok
      · exact socketCallback_met (s := s.setSocket fd _) hr hok
  dsimp only [Fits]
  cases hsocket : s.socket fd with
  | none =>
      rw [hsocket] at hmet
      exact h.unused_iff.mpr ((getChannel_eq hr).trans hmet)
  | some x =>
      obtain ⟨c, t, hp, hc, -⟩ := h.socket x (socket_some hsocket).1
      rw [hsocket, Option.bind_some, hp] at hmet
      exact h.inj hc ((getChannel_eq hr).trans hmet)

/-- The assert of `~Request` asks whether libcurl has a socket for it. -/
theorem Wired.destroy_failed (h : s.Wired) {i : Nat} (hr : s.requests i = some r) :
    (s.destroy i r).failed = [] ↔ s.failed = [] ∧ s.Unused i := by
  refine assert_failed.trans (and_congr_right fun _ => ?_)
  rw [h.unused_iff, getChannel_eq hr]
  cases hc : r.channel_ with
  | none => simp [isNoneEvent, hc]
  | some c =>
      obtain ⟨x, hx, rfl⟩ := h.request i c ((getChannel_eq hr).trans hc)
      obtain ⟨d, t, -, hd, ht, -, hw⟩ := h.socket x hx
      obtain rfl := Option.some.inj (hc.symm.trans ((getChannel_eq hr).symm.trans hd))
      simp [isNoneEvent, hc, ht, Channel.isNoneEvent, hw.reading]

theorem Wired.unref_failed_iff (h : s.Wired) {i : Nat} (hr : s.requests i = some r) :
    (s.unref i).failed = [] ↔
      s.failed = [] ∧ (r.held = true ∨ s.guard = some i ∨ s.Unused i) := by
  unfold unref
  simp only [hr]
  by_cases hkept : r.held = true ∨ s.guard = some i
  · rw [if_pos hkept]
    exact (and_iff_left (hkept.imp_right .inl)).symm
  · rw [if_neg hkept, h.destroy_failed hr]
    refine and_congr_right fun _ => ⟨fun hunused => .inr (.inr hunused), ?_⟩
    rintro (hheld | hguard | hunused)
    · exact (hkept (.inl hheld)).elim
    · exact (hkept (.inr hguard)).elim
    · exact hunused

/-! ## What is freed -/

theorem free_eq (hquiet : ∀ t, s.channels c = some t → t.channel.eventHandling_ = false) :
    s.free c = { s with channels := Function.update s.channels c none } := by
  unfold free
  split
  · rename_i hnone
    rw [← hnone, Function.update_eq_self]
  · rename_i t ht
    rw [assert_true (hquiet t ht)]

theorem foldl_free_eq {cs : List Nat}
    (hquiet : ∀ c ∈ cs, ∀ t, s.channels c = some t → t.channel.eventHandling_ = false) :
    cs.foldl free s = { s with channels := fun d => if d ∈ cs then none else s.channels d } := by
  induction cs generalizing s with
  | nil => simp
  | cons c cs ih =>
      rw [List.foldl_cons, free_eq (hquiet c List.mem_cons_self), ih]
      · refine congrArg (fun f => { s with channels := f }) (funext fun d => ?_)
        by_cases hd : d = c
        · simp [hd]
        · simp [hd]
      · intro d hd t ht
        by_cases hdc : d = c
        · subst hdc
          change Function.update s.channels d none d = some t at ht
          rw [Function.update_self] at ht
          cases ht
        · exact hquiet d (List.mem_cons_of_mem _ hd) t ((Function.update_of_ne hdc _ _).symm.trans ht)

/-- The functors of a pass go, and the Channels in them. -/
theorem Wired.endFunctors (h : s.Wired) {functors : List Nat} (hfunctors : s.functors = some functors) :
    ({ s with
      channels := fun d => if d ∈ functors then none else s.channels d
      functors := none } : State).Wired := by
  have hretired : s.retired = s.pendingFunctors_ ++ functors := by
    unfold State.retired
    rw [hfunctors, Option.getD_some]
  have hnodup := hretired ▸ h.nodup
  have hin : ∀ d ∈ functors, d ∈ s.retired := fun d hd => hretired ▸ List.mem_append_right _ hd
  refine ⟨h.one, ?_, h.request, ?_, ?_, ?_⟩
  · intro x hx
    obtain ⟨c, t, hp, hc, ht, htie, hw⟩ := h.socket x hx
    exact ⟨c, t, hp, hc, (if_neg fun hmem => h.not_retired hc (hin c hmem)).trans ht, htie, hw⟩
  · intro c t ht
    simp only [Option.ite_none_left_eq_some] at ht
    obtain ⟨hmem, ht⟩ := ht
    obtain ⟨hlt, hkept⟩ := h.channel c t ht
    refine ⟨hlt, hkept.imp_right fun hkept => ?_⟩
    rw [hretired] at hkept
    exact List.mem_append_left _ ((List.mem_append.mp hkept).resolve_right hmem)
  · intro c hc
    have hpending : c ∈ s.pendingFunctors_ := (List.mem_append.mp hc).resolve_right List.not_mem_nil
    obtain ⟨t, ht, hidle⟩ := h.retired c (hretired ▸ List.mem_append_left _ hpending)
    have hnot : c ∉ functors := fun hmem => (List.nodup_append.mp hnodup).2.2 c hpending c hmem rfl
    exact ⟨t, (if_neg hnot).trans ht, hidle⟩
  · show (s.pendingFunctors_ ++ []).Nodup
    rw [List.append_nil]
    exact hnodup.of_append_left

/-! ## What a handler needs -/

/-- **The objects of a running handler exist**, and a request that goes has no Channel. -/
structure Safe (s : State) : Prop where
  made : ∀ i, (s.requests i).isSome → i < s.numRequests
  handling : ∀ h, s.handling = some h →
    s.functors = none ∧ (s.requests h.guard).isSome ∧ (s.channels h.channel).isSome
  quiet : ∀ c t, s.channels c = some t → t.channel.eventHandling_ = true →
    ∃ h, s.handling = some h ∧ h.channel = c
  acting : s.acting = true → s.functors = none
  destroying : ∀ i, s.destroying = some i →
    s.acting = false ∧ s.guard ≠ some i ∧ s.getChannel i = none

theorem new_safe : State.new.Safe where
  made _ h := by cases h
  handling _ h := by cases h
  quiet _ _ h := by cases h
  acting h := by cases h
  destroying _ h := by cases h

theorem Safe.frame (h : s.Safe) (hrequests : ∀ i, (s'.requests i).isSome = (s.requests i).isSome)
    (hnum : s'.numRequests = s.numRequests) (hhandling : s'.handling = s.handling)
    (hfunctors : s'.functors = s.functors) (hacting : s'.acting = s.acting)
    (hdestroying : s'.destroying = s.destroying)
    (hexists : ∀ c, (s.channels c).isSome → (s'.channels c).isSome)
    (hquiet : ∀ c t', s'.channels c = some t' → t'.channel.eventHandling_ = true →
      ∃ t, s.channels c = some t ∧ t.channel.eventHandling_ = true)
    (hnone : ∀ i, s.destroying = some i → s'.getChannel i = none) : s'.Safe where
  made i hi := by
    rw [hnum]
    exact h.made i (hrequests i ▸ hi)
  handling g hg := by
    obtain ⟨hno, hr, hc⟩ := h.handling g (hhandling ▸ hg)
    rw [hfunctors, hrequests]
    exact ⟨hno, hr, hexists _ hc⟩
  quiet c t' ht' hbusy := by
    obtain ⟨t, ht, hbusy⟩ := hquiet c t' ht' hbusy
    rw [hhandling]
    exact h.quiet c t ht hbusy
  acting ha := by
    rw [hfunctors]
    exact h.acting (hacting ▸ ha)
  destroying i hi := by
    obtain ⟨ha, hguard, -⟩ := h.destroying i (hdestroying ▸ hi)
    unfold guard at hguard ⊢
    rw [hacting, hhandling]
    exact ⟨ha, hguard, hnone i (hdestroying ▸ hi)⟩

theorem getChannel_setRequest {i : Nat} {held : Bool} (hr : s.requests i = some r) (j : Nat) :
    (s.setRequest i { r with held := held }).getChannel j = s.getChannel j := by
  rw [getChannel_update rfl]
  by_cases hj : j = i
  · rw [if_pos hj, hj, getChannel_eq hr]
  · rw [if_neg hj]

theorem isSome_update {i : Nat} {r' : Request} (hr : s.requests i = some r) (j : Nat) :
    (Function.update s.requests i (some r') j).isSome = (s.requests j).isSome := by
  by_cases hj : j = i
  · rw [hj, Function.update_self, hr]
    rfl
  · rw [Function.update_of_ne hj]

theorem Safe.setRequest (h : s.Safe) {i : Nat} (hr : s.requests i = some r) (held : Bool) :
    (s.setRequest i { r with held := held }).Safe :=
  h.frame (isSome_update hr) rfl rfl rfl rfl rfl (fun _ hc => hc) (fun _ t ht hbusy => ⟨t, ht, hbusy⟩)
    fun j hj => (getChannel_setRequest hr j).trans (h.destroying j hj).2.2

theorem Wired.setRequest (h : s.Wired) {i : Nat} (hr : s.requests i = some r) (held : Bool) :
    (s.setRequest i { r with held := held }).Wired :=
  h.frame (getChannel_setRequest hr) (fun _ => rfl) rfl rfl rfl

theorem Wired.unref (h : s.Wired) (i : Nat) : (s.unref i).Wired := by
  unfold State.unref
  split
  · exact h
  · split
    · exact h
    · exact h.frame (fun _ => rfl) (fun _ => rfl) rfl rfl rfl

theorem Safe.unref (h : s.Safe) (hwired : s.Wired) {i : Nat} (hacting : s.acting = false ∨ s.guard = some i)
    (hok : (s.unref i).failed = []) : (s.unref i).Safe := by
  unfold State.unref at hok ⊢
  split
  · exact h
  · rename_i r hr
    rw [hr] at hok
    split
    · exact h
    · rename_i hkept
      simp only [if_neg hkept] at hok
      have hunused := ((hwired.destroy_failed hr).mp hok).2
      have hguard : s.guard ≠ some i := fun hguard => hkept (.inr hguard)
      refine ⟨h.made, h.handling, h.quiet, h.acting, ?_⟩
      rintro j ⟨⟩
      exact ⟨hacting.resolve_right hguard, hguard, hwired.unused_iff.mp hunused⟩

/-- A call of `socketCallback` that fits. -/
theorem Safe.callSocketFunction (h : s.Safe) (hwired : s.Wired) (hr : s.requests easy = some r)
    (hnone : s.destroying = none) (hsome : what = .pollRemove → (s.socket fd).isSome)
    (hfits : s.Fits (.socketCallback easy fd what)) :
    (s.callSocketFunction easy fd what).Safe ∧ (s.callSocketFunction easy fd what).failed = s.failed := by
  have hidle : ∀ (s' : State) i, s.destroying = some i → s'.getChannel i = none := by
    intro s' i hi
    rw [hnone] at hi
    cases hi
  -- a new Channel, and a changed one, at `c`
  have hput : ∀ {c : Nat} {u : TiedChannel}, (u.channel.eventHandling_ = true →
      ∃ t, s.channels c = some t ∧ t.channel.eventHandling_ = true) →
      (∀ d, (s.channels d).isSome → (Function.update s.channels c (some u) d).isSome) ∧
      ∀ d t', Function.update s.channels c (some u) d = some t' → t'.channel.eventHandling_ = true →
        ∃ t, s.channels d = some t ∧ t.channel.eventHandling_ = true := by
    intro c u hu
    refine ⟨fun d hd => ?_, fun d t' ht' hbusy => ?_⟩
    · by_cases hdc : d = c
      · rw [hdc, Function.update_self]
        rfl
      · rw [Function.update_of_ne hdc]
        exact hd
    · by_cases hdc : d = c
      · subst hdc
        rw [Function.update_self, Option.some.injEq] at ht'
        subst ht'
        exact hu hbusy
      · rw [Function.update_of_ne hdc] at ht'
        exact ⟨t', ht', hbusy⟩
  cases hsocket : s.socket fd with
  | none =>
      have hwhat : what ≠ .pollRemove := by
        intro hremove
        have hfound := hsome hremove
        rw [hsocket] at hfound
        cases hfound
      have hunused : s.Unused easy := by
        have hfits := hfits
        simp only [Fits, hsocket] at hfits
        exact hfits
      have hnew : r.channel_ = none := (getChannel_eq hr).symm.trans (hwired.unused_iff.mp hunused)
      rw [callSocketFunction_new hsocket hr hnew hwhat]
      obtain ⟨hexists, hquiet⟩ := hput (c := s.numChannels)
        (u := ⟨⟨fd, true, what.out, true, false⟩, easy⟩) (fun hbusy => by cases hbusy)
      exact ⟨h.frame (isSome_update hr) rfl rfl rfl rfl rfl hexists hquiet (hidle _), rfl⟩
  | some x =>
      have hx : x.easy = easy := by
        have hfits := hfits
        simp only [Fits, hsocket] at hfits
        exact hfits
      obtain ⟨c, t, hp, hrc, hc, ht, -, -⟩ := hwired.of_socket hsocket hx hr
      by_cases hwhat : what = .pollRemove
      · subst hwhat
        rw [callSocketFunction_remove hsocket hr hp hrc ht]
        obtain ⟨hexists, hquiet⟩ := hput (c := c)
          (u := { t with channel := t.channel.disableAll.stop }) (fun hbusy => ⟨t, ht, hbusy⟩)
        exact ⟨h.frame (isSome_update hr) rfl rfl rfl rfl rfl hexists hquiet (hidle _), rfl⟩
      · rw [callSocketFunction_poll hsocket hr hp hrc ht hwhat]
        obtain ⟨hexists, hquiet⟩ := hput (c := c)
          (u := { t with channel := { t.channel with writing := what.out } }) (fun hbusy => ⟨t, ht, hbusy⟩)
        exact ⟨h.frame (fun _ => rfl) rfl rfl rfl rfl rfl hexists hquiet (hidle _), rfl⟩

theorem Wired.callSocketFunction (h : s.Wired) (hr : s.requests easy = some r) (hfunctors : s.functors = none)
    (hsome : what = .pollRemove → (s.socket fd).isSome) (hfits : s.Fits (.socketCallback easy fd what)) :
    (s.callSocketFunction easy fd what).Wired := by
  cases hsocket : s.socket fd with
  | none =>
      simp only [Fits, hsocket] at hfits
      refine h.new hsocket hr hfits fun hremove => ?_
      have hfound := hsome hremove
      rw [hsocket] at hfound
      cases hfound
  | some x =>
      simp only [Fits, hsocket] at hfits
      by_cases hwhat : what = .pollRemove
      · rw [hwhat]
        exact h.remove hsocket hfits hr hfunctors
      · exact h.poll hsocket hfits hr hwhat

/-! ## Steps -/

/-- **After a step**: its asserts held if it fits, and only then, and then the state is sound. -/
structure Sound (s : State) (fits : Prop) : Prop where
  met : s.failed = [] ↔ fits
  wired : s.failed = [] → s.Wired
  safe : s.failed = [] → s.Safe

theorem Sound.plain (hs : s.failed = []) (hwired : s.Wired) (hsafe : s.Safe) : s.Sound True :=
  ⟨iff_true_intro hs, fun _ => hwired, fun _ => hsafe⟩

/-- What keeps the interest sets and the requests. -/
theorem update_still {f : Channel → Channel} (hf : ∀ ch : Channel, (f ch).endEvent = ch.endEvent) (c d : Nat) :
    ((s.update c f).channels d).map TiedChannel.still = (s.channels d).map TiedChannel.still := by
  by_cases hd : d = c
  · subst hd
    cases ht : s.channels d with
    | none => simp [State.update, ht]
    | some t => simp [update_self ht, TiedChannel.still, hf]
  · rw [update_of_ne hd]

theorem sound_getUrl (hwired : s.Wired) (hsafe : s.Safe) (hs : s.failed = []) :
    Sound { s.setRequest s.numRequests ⟨none, true⟩ with numRequests := s.numRequests + 1 } True := by
  have hfresh : s.requests s.numRequests = none := by
    cases hr : s.requests s.numRequests with
    | none => rfl
    | some r => exact absurd (hsafe.made _ (by rw [hr]; rfl)) (Nat.lt_irrefl _)
  have hchan : ∀ j, State.getChannel { s.setRequest s.numRequests ⟨none, true⟩ with
      numRequests := s.numRequests + 1 } j = s.getChannel j := by
    intro j
    rw [getChannel_update rfl]
    by_cases hj : j = s.numRequests
    · rw [if_pos hj, hj]
      unfold State.getChannel
      rw [hfresh]
      rfl
    · rw [if_neg hj]
  have hkeep : ∀ j, (s.requests j).isSome →
      (Function.update s.requests s.numRequests (some ⟨none, true⟩) j).isSome := by
    intro j hj
    rwa [Function.update_of_ne (Nat.ne_of_lt (hsafe.made j hj))]
  refine .plain hs (hwired.frame hchan (fun _ => rfl) rfl rfl rfl) ⟨?_, ?_, hsafe.quiet, hsafe.acting, ?_⟩
  · intro j hj
    by_cases hnew : j = s.numRequests
    · exact hnew ▸ Nat.lt_succ_self _
    · change (Function.update s.requests s.numRequests _ j).isSome at hj
      rw [Function.update_of_ne hnew] at hj
      exact Nat.lt_succ_of_lt (hsafe.made j hj)
  · intro h hh
    obtain ⟨hno, hr, hc⟩ := hsafe.handling h hh
    exact ⟨hno, hkeep _ hr, hc⟩
  · intro i hi
    obtain ⟨ha, hguard, hnone⟩ := hsafe.destroying i hi
    exact ⟨ha, hguard, (hchan i).trans hnone⟩

theorem sound_release (hwired : s.Wired) (hsafe : s.Safe) (hs : s.failed = []) {i : Nat}
    (hr : s.requests i = some r) (hplace : s.acting = false ∨ s.guard = some i) :
    Sound ((s.setRequest i { r with held := false }).unref i) (s.Fits (.release i)) := by
  have hwired' := hwired.setRequest hr false
  have hr' : (s.setRequest i { r with held := false }).requests i = some { r with held := false } :=
    Function.update_self _ _ _
  refine ⟨?_, fun _ => hwired'.unref i, (hsafe.setRequest hr false).unref hwired' hplace⟩
  rw [hwired'.unref_failed_iff hr']
  refine ⟨fun ⟨_, hkept⟩ => hkept.resolve_left Bool.false_ne_true, fun hfits => ⟨hs, .inr hfits⟩⟩

theorem sound_handleEvent (hwired : s.Wired) (hsafe : s.Safe) (hs : s.failed = []) {revents : Revents}
    (ht : s.channels c = some t) (hidle : s.Idle) (hr : s.requests t.tie_ = some r) :
    Sound { s.update c Channel.beginEvent with
      handling := some ⟨c, t.tie_, Channel.handleEventWithGuard revents⟩ } True := by
  obtain ⟨hhandling, hacting, hnone, hfunctors⟩ := hidle
  have hstill := update_still (s := s) (f := Channel.beginEvent) (fun _ => rfl) c
  refine .plain hs (hwired.frame (fun _ => rfl) hstill rfl rfl rfl)
    ⟨hsafe.made, ?_, ?_, fun _ => hfunctors, ?_⟩
  · rintro h ⟨⟩
    exact ⟨hfunctors, Option.isSome_of_eq_some hr, Option.isSome_of_eq_some (update_self ht Channel.beginEvent)⟩
  · intro d u hu hbusy
    by_cases hd : d = c
    · exact ⟨_, rfl, hd.symm⟩
    · rw [show (s.update c Channel.beginEvent).channels d = _ from update_of_ne hd _] at hu
      obtain ⟨h, hh, -⟩ := hsafe.quiet d u hu hbusy
      rw [hhandling] at hh
      cases hh
  · intro i hi
    rw [show s.destroying = some i from hi] at hnone
    cases hnone

theorem sound_handlerReturns (hwired : s.Wired) (hsafe : s.Safe) (hs : s.failed = []) {h : Handling}
    (hh : s.handling = some h) (hacting : s.acting = false) (hnone : s.destroying = none) :
    Sound ({ s.update h.channel Channel.endEvent with handling := none }.unref h.guard)
      (s.Fits .handlerReturns) := by
  obtain ⟨hfunctors, hreq, -⟩ := hsafe.handling h hh
  obtain ⟨r, hr⟩ := Option.isSome_iff_exists.mp hreq
  have hwired' : ({ s.update h.channel Channel.endEvent with handling := none } : State).Wired :=
    hwired.frame (fun _ => rfl) (update_still (f := Channel.endEvent) (fun _ => rfl) h.channel) rfl rfl rfl
  have hsafe' : ({ s.update h.channel Channel.endEvent with handling := none } : State).Safe := by
    refine ⟨hsafe.made, fun _ hh' => absurd hh' (by simp), ?_, fun _ => hfunctors, ?_⟩
    · intro d u hu hbusy
      by_cases hd : d = h.channel
      · obtain ⟨t, -, rfl⟩ := Option.map_eq_some_iff.mp
          ((show (s.update h.channel Channel.endEvent).channels h.channel = _ from
            Function.update_self _ _ _).symm.trans (hd ▸ hu))
        cases hbusy
      · rw [show (s.update h.channel Channel.endEvent).channels d = _ from update_of_ne hd _] at hu
        obtain ⟨h', hh', hc⟩ := hsafe.quiet d u hu hbusy
        obtain rfl := Option.some.inj (hh.symm.trans hh')
        exact absurd hc.symm hd
    · intro i hi
      rw [show s.destroying = some i from hi] at hnone
      cases hnone
  refine ⟨?_, fun _ => hwired'.unref _, hsafe'.unref hwired' (.inl hacting)⟩
  rw [hwired'.unref_failed_iff (r := r) hr]
  constructor
  · rintro ⟨-, hkept⟩ h' hh' r' hr'
    obtain rfl := Option.some.inj (hh.symm.trans hh')
    obtain rfl := Option.some.inj (hr.symm.trans hr')
    exact hkept.imp_right fun hkept => hkept.resolve_left (by simp [guard])
  · intro hfits
    exact ⟨hs, (hfits h hh r hr).imp_right .inr⟩

theorem sound_removeReturns (hwired : s.Wired) (hsafe : s.Safe) (hs : s.failed = []) {i : Nat}
    (hi : s.destroying = some i) (hr : s.requests i = some r) :
    Sound { s.reset r with
      requests := Function.update (s.reset r).requests i none, destroying := none } True := by
  obtain ⟨hacting, hguard, hnone⟩ := hsafe.destroying i hi
  have hreset : s.reset r = s := by
    unfold reset
    rw [show r.channel_ = none from (getChannel_eq hr).symm.trans hnone]
  rw [hreset]
  have hkeep : ∀ j, j ≠ i → Function.update s.requests i none j = s.requests j :=
    fun j hj => Function.update_of_ne hj _ _
  refine .plain hs (hwired.frame (fun j => ?_) (fun _ => rfl) rfl rfl rfl)
    ⟨fun j hj => ?_, fun h hh => ?_, hsafe.quiet, hsafe.acting, fun j hj => absurd hj (by simp)⟩
  · by_cases hj : j = i
    · rw [hj, hnone]
      unfold State.getChannel
      simp
    · unfold State.getChannel
      simp [hj]
  · by_cases hji : j = i
    · simp [hji] at hj
    · exact hsafe.made j (hkeep j hji ▸ hj)
  · obtain ⟨hno, hreq, hc⟩ := hsafe.handling h hh
    have hne : h.guard ≠ i := by
      rintro rfl
      refine hguard ?_
      unfold State.guard
      rw [show s.handling = some h from hh]
      rfl
    obtain ⟨r', hr'⟩ := Option.isSome_iff_exists.mp hreq
    exact ⟨hno, Option.isSome_of_eq_some ((hkeep _ hne).trans hr'), hc⟩

theorem sound_doPendingFunctors (hwired : s.Wired) (hsafe : s.Safe) (hs : s.failed = []) (hidle : s.Idle) :
    Sound { s with functors := some s.pendingFunctors_, pendingFunctors_ := [] } True := by
  obtain ⟨hhandling, hacting, hnone, hfunctors⟩ := hidle
  have hretired : State.retired { s with functors := some s.pendingFunctors_, pendingFunctors_ := [] } =
      s.retired := by
    unfold State.retired
    rw [hfunctors]
    simp
  refine .plain hs (hwired.frame (fun _ => rfl) (fun _ => rfl) rfl rfl hretired)
    ⟨hsafe.made, fun h hh => ?_, hsafe.quiet, fun ha => ?_, hsafe.destroying⟩
  · rw [show s.handling = some h from hh] at hhandling
    cases hhandling
  · rw [show s.acting = true from ha] at hacting
    cases hacting

theorem sound_endFunctors (hwired : s.Wired) (hsafe : s.Safe) (hs : s.failed = []) {functors : List Nat}
    (hfunctors : s.functors = some functors) :
    Sound { functors.foldl free s with functors := none } True := by
  have hidle : ∀ h, s.handling ≠ some h := by
    intro h hh
    rw [(hsafe.handling h hh).1] at hfunctors
    cases hfunctors
  have hquiet : ∀ c t, s.channels c = some t → t.channel.eventHandling_ = false := by
    intro c t ht
    refine Bool.eq_false_iff.mpr fun hbusy => ?_
    obtain ⟨h, hh, -⟩ := hsafe.quiet c t ht hbusy
    exact hidle h hh
  rw [foldl_free_eq fun c _ => hquiet c]
  refine .plain hs (hwired.endFunctors hfunctors)
    ⟨hsafe.made, fun h hh => absurd hh (hidle h), fun c t ht hbusy => ?_, fun _ => rfl, hsafe.destroying⟩
  simp only [Option.ite_none_left_eq_some] at ht
  rw [hquiet c t ht.2] at hbusy
  cases hbusy

theorem sound_socketCallback (hwired : s.Wired) (hsafe : s.Safe) (hs : s.failed = [])
    (hplace : s.acting = true ∨ s.destroying = some easy ∧ what = .pollRemove)
    (hr : s.requests easy = some r) (hsome : what = .pollRemove → (s.socket fd).isSome) :
    Sound (s.callSocketFunction easy fd what) (s.Fits (.socketCallback easy fd what)) := by
  -- a request that goes has no socket to let go
  have hacting : s.Fits (.socketCallback easy fd what) → s.acting = true := by
    intro hfits
    refine hplace.resolve_right fun ⟨hdestroying, hremove⟩ => ?_
    obtain ⟨x, hsocket⟩ := Option.isSome_iff_exists.mp (hsome hremove)
    simp only [Fits, hsocket] at hfits
    obtain ⟨c, t, -, -, hc, -⟩ := hwired.of_socket hsocket hfits hr
    rw [(hsafe.destroying easy hdestroying).2.2] at hc
    cases hc
  have hnone : s.acting = true → s.destroying = none := by
    intro hacting
    cases hdestroying : s.destroying with
    | none => rfl
    | some i =>
        rw [(hsafe.destroying i hdestroying).1] at hacting
        cases hacting
  have hfits : (s.callSocketFunction easy fd what).failed = [] → s.Fits (.socketCallback easy fd what) :=
    hwired.fits_socketCallback hr
  refine ⟨⟨hfits, fun hfit => ?_⟩, fun hok => ?_, fun hok => ?_⟩
  · exact (hsafe.callSocketFunction hwired hr (hnone (hacting hfit)) hsome hfit).2.trans hs
  · exact hwired.callSocketFunction hr (hsafe.acting (hacting (hfits hok))) hsome (hfits hok)
  · exact (hsafe.callSocketFunction hwired hr (hnone (hacting (hfits hok))) hsome (hfits hok)).1

theorem sound_step (hwired : s.Wired) (hsafe : s.Safe) (hs : s.failed = []) {e : Event}
    (hstep : s.step e = some s') : s'.Sound (s.Fits e) := by
  cases step_inv hstep with
  | getUrl _ => exact sound_getUrl hwired hsafe hs
  | keep hr _ => exact .plain hs (hwired.setRequest hr true) (hsafe.setRequest hr true)
  | release hr _ hplace => exact sound_release hwired hsafe hs hr hplace
  | onTimer hidle =>
      refine .plain hs (hwired.frame (fun _ => rfl) (fun _ => rfl) rfl rfl rfl)
        ⟨hsafe.made, hsafe.handling, hsafe.quiet, fun _ => hidle.2.2.2, fun i hi => ?_⟩
      exact absurd (hidle.2.2.1.symm.trans hi) (by simp)
  | expired _ _ _ => exact .plain hs hwired hsafe
  | handleEvent ht hidle _ hr => exact sound_handleEvent hwired hsafe hs ht hidle hr
  | callback hh hacting hnone =>
      obtain ⟨hfunctors, hreq, hc⟩ := hsafe.handling _ hh
      refine .plain hs (hwired.frame (fun _ => rfl) (fun _ => rfl) rfl rfl rfl)
        ⟨hsafe.made, ?_, fun c t ht hbusy => ?_, fun _ => hfunctors, fun i hi => ?_⟩
      · rintro h ⟨⟩
        exact ⟨hfunctors, hreq, hc⟩
      · obtain ⟨h, hh', hchannel⟩ := hsafe.quiet c t ht hbusy
        obtain rfl := Option.some.inj (hh.symm.trans hh')
        exact ⟨_, rfl, hchannel⟩
      · rw [show s.destroying = some i from hi] at hnone
        cases hnone
  | socketCallback hplace hr hsome => exact sound_socketCallback hwired hsafe hs hplace hr hsome
  | actionReturns hacting =>
      refine .plain hs (hwired.frame (fun _ => rfl) (fun _ => rfl) rfl rfl rfl)
        ⟨hsafe.made, hsafe.handling, hsafe.quiet, fun _ => hsafe.acting hacting, fun i hi => ?_⟩
      exact ⟨rfl, (hsafe.destroying i hi).2⟩
  | handlerReturns hh hacting hnone => exact sound_handlerReturns hwired hsafe hs hh hacting hnone
  | removeReturns hi hr => exact sound_removeReturns hwired hsafe hs hi hr
  | doPendingFunctors hidle => exact sound_doPendingFunctors hwired hsafe hs hidle
  | endFunctors hfunctors _ _ => exact sound_endFunctors hwired hsafe hs hfunctors

/-! ## Runs -/

theorem run_failed {es : List Event} (hrun : machine.run s es = some s') (h : s'.failed = []) :
    s.failed = [] := by
  induction es generalizing s with
  | nil =>
      simp only [Machine.run, Option.some.injEq] at hrun
      exact hrun ▸ h
  | cons e es ih =>
      rw [Machine.run, Option.bind_eq_some_iff] at hrun
      obtain ⟨t, hstep, hrest⟩ := hrun
      exact step_failed hstep (ih hrest)

theorem along_fits_iff {es : List Event} (hwired : s.Wired) (hsafe : s.Safe) (hs : s.failed = [])
    (hrun : machine.run s es = some s') : s'.failed = [] ↔ machine.Along Fits s es := by
  induction es generalizing s with
  | nil =>
      simp only [Machine.run, Option.some.injEq] at hrun
      exact iff_of_true (hrun ▸ hs) trivial
  | cons e es ih =>
      rw [Machine.run, Option.bind_eq_some_iff] at hrun
      obtain ⟨t, hstep, hrest⟩ := hrun
      have hsound := sound_step hwired hsafe hs hstep
      rw [Machine.along_cons hstep]
      constructor
      · intro hok
        have ht := run_failed hrest hok
        exact ⟨hsound.met.mp ht, (ih (hsound.wired ht) (hsound.safe ht) ht hrest).mp hok⟩
      · rintro ⟨hfits, halong⟩
        have ht := hsound.met.mpr hfits
        exact (ih (hsound.wired ht) (hsound.safe ht) ht hrest).mpr halong

theorem reachable_sound (h : machine.Reachable s) (hs : s.failed = []) : s.Wired ∧ s.Safe := by
  refine h.invariant (I := fun s => s.failed = [] → s.Wired ∧ s.Safe) ?_ ?_ hs
  · rintro s hinit -
    obtain rfl : s = State.new := hinit
    exact ⟨new_wired, new_safe⟩
  · intro s e s' _ ih _ hstep hs'
    have hs := step_failed hstep hs'
    obtain ⟨hwired, hsafe⟩ := ih hs
    have hsound := sound_step hwired hsafe hs hstep
    exact ⟨hsound.wired hs', hsound.safe hs'⟩

end State

/-- **When the asserts hold.** In every run, no assert of `Curl.cc` and `Channel.cc` fails if libcurl calls for a
    socket with the handle it belongs to, asks for a second socket of a handle only after the first has gone,
    and no request goes while libcurl has a socket for it; and if any of these is not so, one has failed. -/
theorem asserts_hold_iff {s : State} {es : List Event} (hrun : machine.run State.new es = some s) :
    s.failed = [] ↔ machine.Along State.Fits State.new es :=
  State.along_fits_iff State.new_wired State.new_safe rfl hrun

/-- The user lets a request go in the middle of its transfer. -/
theorem asserts_hold_iff_releasedEarly :
    ∃ s, machine.run State.new [.getUrl, .onTimer, .socketCallback 0 5 .pollIn, .actionReturns, .release 0] =
        some s ∧
      s.failed = ["!channel_ || channel_->isNoneEvent()"] ∧
      ¬ machine.Along State.Fits State.new
        [.getUrl, .onTimer, .socketCallback 0 5 .pollIn, .actionReturns, .release 0] := by
  have hrun : (machine.run State.new [.getUrl, .onTimer, .socketCallback 0 5 .pollIn, .actionReturns,
      .release 0]).map State.failed = some ["!channel_ || channel_->isNoneEvent()"] := by decide +kernel
  obtain ⟨s, hs, hfailed⟩ := Option.map_eq_some_iff.mp hrun
  refine ⟨s, hs, hfailed, fun halong => ?_⟩
  rw [(asserts_hold_iff hs).mpr halong] at hfailed
  cases hfailed

/-- **The loop watches what libcurl asked for.** In every run in which no assert has failed, each of libcurl's
    sockets has a Channel that watches the descriptor, always for reading, and for writing if and only if libcurl
    asked for that last; each Channel whose watcher is started is the one of such a socket; and a Channel,
    a descriptor and a handle belong to one socket. -/
theorem sockets_watched {s : State} (h : machine.Reachable s) (hs : s.failed = []) :
    (∀ x ∈ s.sockets, ∃ c t, x.socketp = some c ∧ s.channels c = some t ∧ Watches t.channel x) ∧
    (∀ c t, s.channels c = some t → t.channel.active = true →
      ∃ x ∈ s.sockets, x.socketp = some c ∧ Watches t.channel x) ∧
    ∀ x ∈ s.sockets, ∀ y ∈ s.sockets,
      x.socketp = y.socketp ∨ x.fd = y.fd ∨ x.easy = y.easy → x = y := by
  obtain ⟨hwired, -⟩ := State.reachable_sound h hs
  refine ⟨fun x hx => ?_, fun c t ht hactive => ?_, fun x hx y hy hxy => ?_⟩
  · obtain ⟨c, t, hp, -, ht, -, hw⟩ := hwired.socket x hx
    exact ⟨c, t, hp, ht, hw⟩
  · rcases (hwired.channel c t ht).2 with hc | hc
    · obtain ⟨x, hx, hi⟩ := hwired.request _ c hc
      obtain ⟨d, u, hp, hd, hu, -, hw⟩ := hwired.socket x hx
      rw [hi, hc] at hd
      obtain rfl := Option.some.inj hd
      obtain rfl := Option.some.inj (ht.symm.trans hu)
      exact ⟨x, hx, hp, hw⟩
    · obtain ⟨u, hu, hidle⟩ := hwired.retired c hc
      obtain rfl := Option.some.inj (ht.symm.trans hu)
      rw [hactive] at hidle
      cases hidle
  · rcases hxy with hp | hxy
    · obtain ⟨c, t, hpx, hc, -⟩ := hwired.socket x hx
      obtain ⟨d, u, hpy, hd, -⟩ := hwired.socket y hy
      obtain rfl := Option.some.inj (hpx.symm.trans (hp.trans hpy))
      exact hwired.socket_inj hx hy hc hd
    · exact hwired.one x hx y hy hxy

/-- A connection is made, and the answer is awaited. -/
def connects : List Event :=
  [.getUrl, .onTimer, .socketCallback 0 5 .pollOut, .actionReturns, .handleEvent 0 ⟨false, false, true⟩,
   .callback, .socketCallback 0 5 .pollIn]

theorem sockets_watched_connects :
    ∃ s, machine.run State.new connects = some s ∧ s.sockets = [⟨5, 0, .pollIn, some 0⟩] ∧
      ∃ t, s.channels 0 = some t ∧ Watches t.channel ⟨5, 0, .pollIn, some 0⟩ := by
  have hrun : (machine.run State.new connects).map (fun s => (s.failed, s.sockets)) =
      some ([], [⟨5, 0, .pollIn, some 0⟩]) := by decide +kernel
  obtain ⟨s, hs, hvalues⟩ := Option.map_eq_some_iff.mp hrun
  obtain ⟨hfailed, hsockets⟩ := Prod.mk.inj hvalues
  have hmem : (⟨5, 0, .pollIn, some 0⟩ : Socket) ∈ s.sockets := by simp [hsockets]
  obtain ⟨c, t, hp, ht, hw⟩ := (sockets_watched (Machine.run_reachable rfl hs) hfailed).1 _ hmem
  obtain rfl := Option.some.inj hp
  exact ⟨s, hs, hsockets, t, ht, hw⟩

/-- **What a handler uses lives on.** In every run in which no assert has failed, the Channel whose `handleEvent`
    runs has not been destroyed, and neither has the request it is tied to; a started watcher can lock its tie;
    and a stopped Channel waits in a functor, to be destroyed when no handler runs. -/
theorem handler_objects_live {s : State} (h : machine.Reachable s) (hs : s.failed = []) :
    (∀ h, s.handling = some h → (s.channels h.channel).isSome ∧ (s.requests h.guard).isSome) ∧
    (∀ c t, s.channels c = some t → t.channel.active = true →
      ∃ r, s.requests t.tie_ = some r ∧ r.channel_ = some c) ∧
    ∀ c t, s.channels c = some t → t.channel.active = false →
      c ∈ s.pendingFunctors_ ∨ ∃ functors, s.functors = some functors ∧ s.handling = none ∧ c ∈ functors := by
  obtain ⟨hwired, hsafe⟩ := State.reachable_sound h hs
  have hlive : ∀ c t, s.channels c = some t → s.getChannel t.tie_ = some c → t.channel.active = true := by
    intro c t ht hc
    obtain ⟨x, hx, hi⟩ := hwired.request _ c hc
    obtain ⟨d, u, -, hd, hu, -, hw⟩ := hwired.socket x hx
    rw [hi, hc] at hd
    obtain rfl := Option.some.inj hd
    obtain rfl := Option.some.inj (ht.symm.trans hu)
    exact hw.active
  refine ⟨fun h hh => ?_, fun c t ht hactive => ?_, fun c t ht hidle => ?_⟩
  · obtain ⟨-, hr, hc⟩ := hsafe.handling h hh
    exact ⟨hc, hr⟩
  · rcases (hwired.channel c t ht).2 with hc | hc
    · exact Option.bind_eq_some_iff.mp hc
    · obtain ⟨u, hu, hidle⟩ := hwired.retired c hc
      obtain rfl := Option.some.inj (ht.symm.trans hu)
      rw [hactive] at hidle
      cases hidle
  · rcases (hwired.channel c t ht).2 with hc | hc
    · rw [hlive c t ht hc] at hidle
      cases hidle
    · rcases List.mem_append.mp hc with hc | hc
      · exact .inl hc
      · cases hfunctors : s.functors with
        | none =>
            rw [hfunctors] at hc
            exact absurd hc List.not_mem_nil
        | some functors =>
            rw [hfunctors, Option.getD_some] at hc
            refine .inr ⟨functors, rfl, ?_, hc⟩
            cases hh : s.handling with
            | none => rfl
            | some h =>
                rw [(hsafe.handling h hh).1] at hfunctors
                cases hfunctors

/-- The connection ends in the read callback, the user lets its request go there, and the write callback is
    still to come. -/
def endsInside : List Event :=
  [.getUrl, .onTimer, .socketCallback 0 5 .pollInout, .actionReturns, .handleEvent 0 ⟨false, true, true⟩,
   .callback, .socketCallback 0 5 .pollRemove, .release 0]

theorem handler_objects_live_endsInside :
    ∃ s, machine.run State.new endsInside = some s ∧ s.handling = some ⟨0, 0, [.writeCallback]⟩ ∧
      (s.channels 0).isSome ∧ (s.requests 0).isSome ∧ 0 ∈ s.pendingFunctors_ := by
  have hrun : (machine.run State.new endsInside).map (fun s =>
      (s.failed, s.handling, (s.channels 0).map (·.channel.active))) =
        some ([], some ⟨0, 0, [.writeCallback]⟩, some false) := by decide +kernel
  obtain ⟨s, hs, hvalues⟩ := Option.map_eq_some_iff.mp hrun
  simp only [Prod.mk.injEq] at hvalues
  obtain ⟨hfailed, hhandling, hactive⟩ := hvalues
  obtain ⟨hobjects, -, hstopped⟩ := handler_objects_live (Machine.run_reachable rfl hs) hfailed
  obtain ⟨hchannel, hrequest⟩ := hobjects _ hhandling
  obtain ⟨t, ht, hidle⟩ := Option.map_eq_some_iff.mp hactive
  refine ⟨s, hs, hhandling, hchannel, hrequest, (hstopped 0 t ht hidle).resolve_right ?_⟩
  rintro ⟨functors, -, hnone, -⟩
  rw [hhandling] at hnone
  cases hnone

end CurlSockets

end Simplev
