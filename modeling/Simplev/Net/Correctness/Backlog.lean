import Simplev.Net.Correctness.Stream

/-!
# `Net.Correctness.Backlog` — write interest and the output buffer

Until `handleClose`, the channel is interested in writing exactly while `outputBuffer_` holds bytes.
-/

namespace Simplev

open Foundation TcpConnection

namespace Session

variable {s s' : Session} {t : Turn}

/-- Write interest matches the backlog. -/
def Matched (c : TcpConnection) : Prop :=
  c.channel_.writing = true ↔ c.outputBuffer_.readable ≠ []

theorem matched_sent {c c' : TcpConnection} {caller : Thread} {message : Message} {w : Write}
    {actions : List Action} {direct : Option Write} {rest : List Byte} (hc : Matched c)
    (h : Sent c caller message w c' actions direct rest) : Matched c' := by
  unfold Matched at hc ⊢
  rw [h.writing, h.readable, Bool.or_eq_true, hc]
  simp only [bne_iff_ne, ne_eq, List.append_eq_nil_iff, not_and_or]

theorem matched_wrote {c c' : TcpConnection} {w : Write} {actions : List Action} (hc : Matched c)
    (h : Wrote c w c' actions) : Matched c' := by
  cases h with
  | closed _ => exact hc
  | kept _ _ => exact hc
  | partly hwriting _ hn _ hread =>
      constructor
      · intro _ hnil
        rw [hread, List.drop_eq_nil_iff] at hnil
        omega
      · intro _
        exact hwriting
  | drained _ _ _ hread =>
      constructor
      · intro hwriting
        exact absurd hwriting (by simp [Channel.disableWriting])
      · intro hsome
        exact absurd hread hsome

theorem matched_read {c c' : TcpConnection} {r : Buffer.Readv} {actions : List Action}
    (hc : Matched c) (h : Read c r c' actions) : .closeCallback ∈ actions ∨ Matched c' := by
  cases h with
  | error _ => exact Or.inr hc
  | closed _ _ _ => exact Or.inl (List.mem_singleton_self _)
  | arrived _ _ _ _ => exact Or.inr hc

/-- **The step lemma**, up to `handleClose`. -/
theorem matched_step (h : .closeCallback ∉ s.trace → Matched s.conn) (hmoves : Moves s s' t)
    (hopen : .closeCallback ∉ s'.trace) : Matched s'.conn := by
  have hc := h fun hmem => hopen (hmoves.trace_grows.subset hmem)
  cases hmoves with
  | pass _ _ hwriting houtput _ _ => rwa [Matched, hwriting, houtput]
  | accept _ _ hconn _ _ => rwa [hconn]
  | send _ hsent _ _ => exact matched_sent hc hsent
  | take _ hsent _ _ => exact matched_sent hc hsent
  | shutdownHere _ hconn _ _ => rwa [hconn]
  | shutdownElsewhere _ _ hconn _ _ => rwa [hconn]
  | shutdownInLoop _ hconn _ => rwa [hconn]
  | connectEstablished _ _ hconn _ _ => rwa [hconn]
  | connectDestroyed _ hclosed _ _ htrace =>
      rw [htrace] at hopen
      exact absurd (List.mem_append_left _ hclosed) hopen
  | handleRead _ _ hread _ htrace =>
      rcases matched_read hc hread with hclose | hmatched
      · rw [htrace] at hopen
        exact absurd (List.mem_append_right _ hclose) hopen
      · exact hmatched
  | handleWrite hwrote _ _ => exact matched_wrote hc hwrote
  | notify _ _ hconn _ => rwa [hconn]
  | removeConnectionInLoop hconn _ _ => rwa [hconn]

theorem reachable_matched (h : connectionMachine.Reachable s) :
    .closeCallback ∉ s.trace → Matched s.conn := by
  refine h.invariant (I := fun s => .closeCallback ∉ s.trace → Matched s.conn) ?_ ?_
  · rintro s ⟨owner, sockfd, writeComplete, rfl⟩ _
    have hempty : (Session.new owner sockfd writeComplete).conn.outputBuffer_.readable = [] :=
      Buffer.new_readable
    rw [Matched, hempty]
    simp [Session.new, TcpConnection.new, Channel.new]
  · intro s e s' hs hmatched _ hstep
    exact matched_step hmatched (step_moves (reachable_wired hs) hstep)

end Session

end Simplev
