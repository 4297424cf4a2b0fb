import Simplev.Base.LogStream
import Simplev.Foundation.Lines

/-!
# `Base.Logging` — log records (`Logging.h`, `Logging.cc`)

A log statement makes a `Logger`, inserts into its stream and destroys it. The constructor writes a
header, the destructor the trailer `finish` and then hands the buffer to `g_output`.

Each piece of the trailer is subject to the check of its own insertion. The newline comes last and takes
two free bytes, so whether it is written depends on how full the buffer is: `LeavesRoom` says when.

What the header takes from outside comes with a statement: the formatted time and thread id, with the
lengths the code asserts, and the text of `strerror_tl`.
-/

namespace Simplev

open Foundation LogStream detail

inductive LogLevel where
  | TRACE
  | DEBUG
  | INFO
  | WARN
  | ERROR
  | FATAL
deriving DecidableEq, Repr

namespace Logger

def LogLevelName : LogLevel → T
  | .TRACE => ⟨['T', 'R', 'A', 'C', 'E', ' '].map Char.toUInt8, 6, rfl, by decide⟩
  | .DEBUG => ⟨['D', 'E', 'B', 'U', 'G', ' '].map Char.toUInt8, 6, rfl, by decide⟩
  | .INFO => ⟨['I', 'N', 'F', 'O', ' ', ' '].map Char.toUInt8, 6, rfl, by decide⟩
  | .WARN => ⟨['W', 'A', 'R', 'N', ' ', ' '].map Char.toUInt8, 6, rfl, by decide⟩
  | .ERROR => ⟨['E', 'R', 'R', 'O', 'R', ' '].map Char.toUInt8, 6, rfl, by decide⟩
  | .FATAL => ⟨['F', 'A', 'T', 'A', 'L', ' '].map Char.toUInt8, 6, rfl, by decide⟩

/-- Which constructor, with its arguments. -/
inductive Constructor where
  | plain
  | withFunction (level : LogLevel) (func : CString)
  | withLevel (level : LogLevel)
  /-- With the value of `errno`. -/
  | withErrno (toAbort : Bool) (errno : Int32)

namespace Constructor

def level : Constructor → LogLevel
  | plain => .INFO
  | withFunction level _ => level
  | withLevel level => level
  | withErrno toAbort _ => if toAbort then .FATAL else .ERROR

def savedErrno : Constructor → Int32
  | withErrno _ errno => errno
  | _ => 0

end Constructor

/-- The time and the thread id as they are formatted, with their asserted lengths. -/
structure Moment where
  time : T
  us : T
  tid : T
  time_len : time.len_ = 17
  us_len : us.len_ = 9
  tid_len : tid.len_ = 6

/-- A log statement: the constructor it calls, at `file` and `line`, and what it inserts. -/
structure Statement where
  constructor : Constructor
  file : CString
  line : Int32
  moment : Moment
  /-- What `strerror_tl` returns for the saved `errno`. -/
  strerror : CString
  inserted : List Insertion

def newline : UInt8 := Char.toUInt8 '\n'

def slash : UInt8 := Char.toUInt8 '/'

/-- `basename_`: what stands behind the last `/`, or all of it. -/
def basename (file : CString) : CString :=
  ⟨(file.val.reverse.takeWhile fun c => c ≠ slash).reverse, fun hmem =>
    file.property (List.mem_reverse.mp ((List.takeWhile_sublist _).subset (List.mem_reverse.mp hmem)))⟩

def formatTime (moment : Moment) : List Insertion := [.known moment.time, .known moment.us]

/-- What `Impl::Impl` inserts. -/
def header (level : LogLevel) (savedErrno : Int32) (moment : Moment) (strerror : CString) :
    List Insertion :=
  formatTime moment ++ [.known moment.tid, .known (LogLevelName level)] ++
    if savedErrno ≠ 0 then
      [.cstring strerror,
       .cstring ⟨[' ', '(', 'e', 'r', 'r', 'n', 'o', '='].map Char.toUInt8, by decide⟩,
       .int savedErrno, .cstring ⟨[')', ' '].map Char.toUInt8, by decide⟩]
    else []

/-- What the constructor inserts on top of the header. -/
def Constructor.inserts : Constructor → List Insertion
  | .withFunction _ func => [.cstring func, .char (Char.toUInt8 ' ')]
  | _ => []

/-- `finish` up to the newline. -/
def trailer (file : CString) (line : Int32) : List Insertion :=
  [.cstring ⟨[' ', '-', ' '].map Char.toUInt8, by decide⟩, .cstring (basename file),
   .char (Char.toUInt8 ':'), .int line]

def finish (b : Buffer) (file : CString) (line : Int32) : Option Buffer :=
  machine.run b (trailer file line ++ [.char newline])

namespace Statement

def level (st : Statement) : LogLevel := st.constructor.level

/-- Everything that is inserted before the destructor runs. -/
def pieces (st : Statement) : List Insertion :=
  header st.level st.constructor.savedErrno st.moment st.strerror ++ st.constructor.inserts ++
    st.inserted

/-- The stream when the destructor runs. -/
def message (st : Statement) : Option Buffer := machine.run FixedBuffer.new st.pieces

/-- What `~Logger` passes to `g_output`. -/
def output (st : Statement) : Option (List UInt8) := do
  let b ← st.message
  let b ← finish b st.file st.line
  return b.asString

end Statement

/-- The statements that are executed: a `FATAL` one aborts the process. -/
def executed : List Statement → List Statement
  | [] => []
  | st :: sts => st :: if st.level = .FATAL then [] else executed sts

/-- What a sequence of log statements passes to `g_output`, call by call. -/
def log (sts : List Statement) : Option (List (List UInt8)) := (executed sts).mapM Statement.output

/-! ## Text without newlines -/

/-- Nothing that is inserted as text or as a character is a newline. -/
def OneLine : Insertion → Prop
  | .char v => v ≠ newline
  | .cstring v => newline ∉ v.val
  | .known v => newline ∉ v.str_
  | .string v => newline ∉ v
  | _ => True

instance : (x : Insertion) → Decidable (OneLine x)
  | .char v => inferInstanceAs (Decidable (v ≠ newline))
  | .cstring v => inferInstanceAs (Decidable (newline ∉ v.val))
  | .known v => inferInstanceAs (Decidable (newline ∉ v.str_))
  | .string v => inferInstanceAs (Decidable (newline ∉ v))
  | .bool _ | .short _ | .unsignedShort _ | .int _ | .unsignedInt _ | .long _ | .unsignedLong _
  | .longLong _ | .unsignedLongLong _ | .pointer _ => inferInstanceAs (Decidable True)

theorem digitChar_ne_newline {d : Nat} (hd : d < 16) : digitChar d ≠ newline := by
  have hall : ∀ d : Fin 16, digitChar d ≠ newline := by decide
  exact hall ⟨d, hd⟩

theorem newline_not_mem_digits {b n : Nat} (hb : 1 < b) (hle : b ≤ 16) :
    newline ∉ ((digitsOf b n).map digitChar).reverse := by
  intro hmem
  obtain ⟨d, hd, heq⟩ := List.mem_map.mp (List.mem_reverse.mp hmem)
  exact digitChar_ne_newline (Nat.lt_of_lt_of_le (digitsOf_lt hb hd) hle) heq

theorem newline_not_mem_decimal (v : Int) : newline ∉ decimal v := by
  rw [decimal, List.mem_append, not_or]
  refine ⟨?_, newline_not_mem_digits (by decide) (by decide)⟩
  split
  · decide
  · exact List.not_mem_nil

theorem OneLine.text {x : Insertion} (h : OneLine x) : newline ∉ x.text := by
  cases hnumber : x.number with
  | some v =>
      rw [(x.number_spec hnumber (FixedBuffer.new : Buffer)).2]
      exact newline_not_mem_decimal v
  | none =>
      cases x with
      | bool v => cases v <;> decide
      | pointer p =>
          rw [Insertion.text, List.mem_cons, List.mem_cons, not_or, not_or]
          exact ⟨by decide, by decide, newline_not_mem_digits (by decide) (by decide)⟩
      | char v =>
          rw [Insertion.text, List.mem_singleton]
          exact fun heq => h heq.symm
      | cstring v => exact h
      | known v => exact h
      | string v => exact h
      | _ => simp [Insertion.number] at hnumber

/-! ## What the pieces leave -/

section pieces

variable {b b' : Buffer} {x : Insertion}

theorem inserts_oneLine (h : Inserts b x b') (hx : OneLine x) (hb : newline ∉ b.asString) :
    newline ∉ b'.asString := by
  by_cases hfits : x.Fits b.avail
  · rw [h.taken hfits, List.mem_append, not_or]
    exact ⟨hb, hx.text⟩
  · rw [h.refused hfits]
    exact hb

/-- **The run lemma**: pieces that are short and without newlines leave such a stream. -/
theorem run_oneLine {es : List Insertion} (hb : b.cur_ < kSmallBuffer) (hline : newline ∉ b.asString)
    (h : ∀ x ∈ es, x.Short ∧ OneLine x) :
    ∃ b', machine.run b es = some b' ∧ b'.cur_ < kSmallBuffer ∧ newline ∉ b'.asString := by
  induction es generalizing b with
  | nil => exact ⟨b, rfl, hb, hline⟩
  | cons x es ih =>
      obtain ⟨⟨hshort, hx⟩, hes⟩ := List.forall_mem_cons.mp h
      obtain ⟨next, hinserts⟩ := insert_spec hb (by decide) hshort
      obtain ⟨b', hrun, hroom, hline'⟩ := ih hinserts.room (inserts_oneLine hinserts hx hline) hes
      refine ⟨b', ?_, hroom, hline'⟩
      rw [Machine.run, machine_step, hinserts.run]
      exact hrun

end pieces

/-! ## The newline of the trailer -/

/-- With `avail` bytes free and a file name of `len` bytes, the pieces of the trailer leave two bytes for
    the newline. -/
def LeavesRoom (avail : Int) (len : Nat) : Prop :=
  avail ≠ 1 ∧ avail ≠ 2 ∧ ¬ (avail = 3 ∧ (len = 1 ∨ len = 2)) ∧ avail ≠ 4 ∧ avail ≠ 5 ∧
    avail ≠ len + 4 ∧ avail ≠ len + 5

instance (avail : Int) (len : Nat) : Decidable (LeavesRoom avail len) := by
  unfold LeavesRoom
  infer_instance

/-- The room after each piece of the trailer, in order. -/
theorem leavesRoom_iff {avail a₁ a₂ a₃ a₄ : Int} {len digits : Nat} (hpos : 0 < avail)
    (h₁ : a₁ = if 3 < avail then avail - 3 else avail)
    (h₂ : a₂ = if (len : Int) < a₁ then a₁ - len else a₁) (h₃ : a₃ = if 1 < a₂ then a₂ - 1 else a₂)
    (h₄ : a₄ = if kMaxNumericSize ≤ a₃ then a₃ - digits else a₃) (hdigits : digits ≤ 20) :
    1 < a₄ ↔ LeavesRoom avail len := by
  unfold kMaxNumericSize at h₄
  unfold LeavesRoom
  -- a number is only written where plenty of room is left, so it decides nothing
  have hnumber : 1 < a₄ ↔ 1 < a₃ := by
    split at h₄ <;> omega
  rw [hnumber]
  by_cases hdash : 3 < avail
  · rw [if_pos hdash] at h₁
    by_cases hname : (len : Int) < a₁
    · rw [if_pos hname] at h₂
      split at h₃ <;> omega
    · rw [if_neg hname] at h₂
      split at h₃ <;> omega
  · rw [if_neg hdash] at h₁
    by_cases hname : (len : Int) < a₁
    · rw [if_pos hname] at h₂
      split at h₃ <;> omega
    · rw [if_neg hname] at h₂
      split at h₃ <;> omega

/-- **`finish`** frames the record if and only if room is left for its newline. -/
theorem finish_spec {b : Buffer} (hb : b.cur_ < kSmallBuffer) (hline : newline ∉ b.asString)
    {file : CString} (hlen : file.val.length < intBound) (hfile : newline ∉ file.val) (line : Int32) :
    ∃ b', finish b file line = some b' ∧
      (Framed newline b'.asString ↔ LeavesRoom b.avail (basename file).val.length) := by
  have hsub : (basename file).val.Sublist file.val := by
    have hback := (List.takeWhile_sublist (l := file.val.reverse) fun c => decide (c ≠ slash)).reverse
    rwa [List.reverse_reverse] at hback
  have hname : newline ∉ (basename file).val := fun hmem => hfile (hsub.subset hmem)
  have hpos : 0 < b.avail := by
    unfold FixedBuffer.avail
    omega
  obtain ⟨b₁, h₁⟩ := insert_spec hb (by decide)
    (x := .cstring ⟨[' ', '-', ' '].map Char.toUInt8, by decide⟩) (by decide)
  obtain ⟨b₂, h₂⟩ := insert_spec h₁.room (by decide) (x := .cstring (basename file))
    (Nat.lt_of_le_of_lt hsub.length_le hlen)
  obtain ⟨b₃, h₃⟩ := insert_spec h₂.room (by decide) (x := .char (Char.toUInt8 ':')) trivial
  obtain ⟨b₄, h₄⟩ := insert_spec h₃.room (by decide) (x := .int line) trivial
  obtain ⟨b₅, h₅⟩ := insert_spec h₄.room (by decide) (x := .char newline) trivial
  have hrun : finish b file line = some b₅ := by
    simp only [finish, trailer, List.cons_append, List.nil_append, Machine.run, machine_step, h₁.run,
      h₂.run, h₃.run, h₄.run, h₅.run, Option.bind_some]
  have hline₁ : newline ∉ b₁.asString :=
    inserts_oneLine h₁ (show newline ∉ [' ', '-', ' '].map Char.toUInt8 by decide) hline
  have hline₂ : newline ∉ b₂.asString := inserts_oneLine h₂ hname hline₁
  have hline₃ : newline ∉ b₃.asString :=
    inserts_oneLine h₃ (show Char.toUInt8 ':' ≠ newline by decide) hline₂
  have hline₄ : newline ∉ b₄.asString := inserts_oneLine h₄ trivial hline₃
  refine ⟨b₅, hrun, Iff.trans ?_ (leavesRoom_iff hpos h₁.avail h₂.avail h₃.avail h₄.avail ?_)⟩
  · obtain ⟨hframed, hnot⟩ := framed_append_iff hline₄
    by_cases hfits : 1 < b₄.avail
    · rw [h₅.taken hfits]
      exact iff_of_true hframed hfits
    · rw [h₅.refused hfits]
      exact iff_of_false hnot hfits
  · have hlow := line.le_toInt
    have hhigh := line.toInt_lt
    exact length_decimal_le (by omega) (by omega)

/-! ## Records -/

namespace Statement

/-- The strings of the statement are shorter than `2 ^ 31`, and they and its characters are not and do
    not have newlines. -/
structure Plain (st : Statement) : Prop where
  pieces : ∀ x ∈ st.pieces, x.Short ∧ OneLine x
  file_lt : st.file.val.length < intBound
  file : newline ∉ st.file.val

/-- When the destructor runs, the stream leaves room for the newline. -/
def LeavesRoom (st : Statement) : Prop :=
  ∀ b, st.message = some b → Logger.LeavesRoom b.avail (basename st.file).val.length

/-- **One record**: it is framed if and only if room was left. -/
theorem output_framed {st : Statement} (h : st.Plain) :
    ∃ out, st.output = some out ∧ (Framed newline out ↔ st.LeavesRoom) := by
  have hempty : newline ∉ (FixedBuffer.new : Buffer).asString := List.not_mem_nil
  obtain ⟨b, hmessage, hb, hline⟩ := run_oneLine (b := FixedBuffer.new) (by decide) hempty h.pieces
  obtain ⟨b', hfinish, hiff⟩ := finish_spec hb hline h.file_lt h.file st.line
  refine ⟨b'.asString, ?_, hiff.trans ?_⟩
  · rw [output, message, hmessage]
    simp [hfinish]
  · constructor
    · intro hroom b'' hb''
      rw [message, hmessage] at hb''
      obtain rfl := Option.some.inj hb''
      exact hroom
    · intro hroom
      exact hroom b hmessage

end Statement

theorem executed_subset {st : Statement} {sts : List Statement} (h : st ∈ executed sts) : st ∈ sts := by
  induction sts with
  | nil => exact h
  | cons first sts ih =>
      rw [executed] at h
      rcases List.mem_cons.mp h with rfl | h
      · exact List.mem_cons_self ..
      · split at h
        · exact absurd h List.not_mem_nil
        · exact List.mem_cons_of_mem _ (ih h)

/-- **The run lemma**: the records of plain statements. -/
theorem outputs_framed {sts : List Statement} (h : ∀ st ∈ sts, st.Plain) :
    ∃ outs, sts.mapM Statement.output = some outs ∧ outs.length = sts.length ∧
      ((∀ out ∈ outs, Framed newline out) ↔ ∀ st ∈ sts, st.LeavesRoom) := by
  induction sts with
  | nil => exact ⟨[], rfl, rfl, by simp⟩
  | cons st sts ih =>
      obtain ⟨hst, hsts⟩ := List.forall_mem_cons.mp h
      obtain ⟨out, hout, hone⟩ := st.output_framed hst
      obtain ⟨outs, houts, hlength, hmore⟩ := ih hsts
      refine ⟨out :: outs, ?_, by rw [List.length_cons, List.length_cons, hlength], ?_⟩
      · rw [List.mapM_cons, hout, houts]
        rfl
      · rw [List.forall_mem_cons, List.forall_mem_cons, hone, hmore]

/-- **Framed records.** The records of a sequence of log statements end with exactly one newline each,
    their only one, and the output splits back into one line per statement, if and only if each
    statement leaves room for its newline. -/
theorem log_framed (sts : List Statement) (h : ∀ st ∈ sts, st.Plain) :
    ∃ outs, log sts = some outs ∧ outs.length = (executed sts).length ∧
      ((∀ out ∈ outs, Framed newline out) ∧ lines newline outs.flatten = outs ↔
        ∀ st ∈ executed sts, st.LeavesRoom) := by
  obtain ⟨outs, houts, hlength, hiff⟩ := outputs_framed fun st hst => h st (executed_subset hst)
  refine ⟨outs, houts, hlength, ?_⟩
  rw [lines_flatten_iff, and_self, hiff]

/-- Digits and letters for the parts of a header. -/
def someMoment : Moment where
  time := ⟨List.replicate 17 (Char.toUInt8 '0'), 17, rfl, by decide⟩
  us := ⟨List.replicate 9 (Char.toUInt8 '0'), 9, rfl, by decide⟩
  tid := ⟨List.replicate 6 (Char.toUInt8 '0'), 6, rfl, by decide⟩
  time_len := rfl
  us_len := rfl
  tid_len := rfl

/-- `LOG_INFO` of a string of `n` letters, at line 7 of `/a.cc`. -/
def infoOf (n : Nat) : Statement where
  constructor := .plain
  file := ⟨['/', 'a', '.', 'c', 'c'].map Char.toUInt8, by decide⟩
  line := 7
  moment := someMoment
  strerror := ⟨[], List.not_mem_nil⟩
  inserted := [.string (List.replicate n (Char.toUInt8 'x'))]

theorem infoOf_plain {n : Nat} (hn : n < intBound) : (infoOf n).Plain where
  pieces := by
    have hheader : ∀ x ∈ header .INFO 0 someMoment ⟨[], List.not_mem_nil⟩, x.Short ∧ OneLine x := by
      decide
    have hletters : newline ∉ List.replicate n (Char.toUInt8 'x') := by
      intro hmem
      exact absurd (List.eq_of_mem_replicate hmem) (by decide)
    intro x hx
    rcases List.mem_append.mp hx with hx | hx
    · rw [show (infoOf n).constructor.inserts = [] from rfl, List.append_nil] at hx
      exact hheader x hx
    · rw [List.mem_singleton.mp hx]
      exact ⟨by rwa [Insertion.Short, List.length_replicate], hletters⟩
  file_lt := show 5 < intBound by decide
  file := show newline ∉ ['/', 'a', '.', 'c', 'c'].map Char.toUInt8 by decide

/-- A message of 3961 letters leaves one byte: the newline is lost. -/
theorem log_loses_newline :
    ¬ ∀ sts : List Statement, (∀ st ∈ sts, st.Plain) → ∃ outs, log sts = some outs ∧
      (∀ out ∈ outs, Framed newline out) ∧ lines newline outs.flatten = outs := by
  intro hclaim
  have hplain : ∀ st ∈ [infoOf 3961], st.Plain := by
    intro st hst
    rw [List.mem_singleton.mp hst]
    exact infoOf_plain (by decide)
  obtain ⟨outs, houts, hframed, _⟩ := hclaim [infoOf 3961] hplain
  obtain ⟨outs', houts', _, hiff⟩ := outputs_framed hplain
  obtain rfl : outs = outs' := Option.some.inj (houts.symm.trans houts')
  have hroom := hiff.mp hframed _ (List.mem_singleton_self _)
  have hfill : (infoOf 3961).message.map (fun b => b.cur_) = some 3999 := by decide +kernel
  obtain ⟨b, hb, hcur⟩ := Option.map_eq_some_iff.mp hfill
  have hone := (hroom b hb).1
  rw [FixedBuffer.avail, hcur] at hone
  exact hone (by decide)

/-- What the stream of `infoOf n` leaves, when the letters fit. -/
theorem infoOf_leavesRoom {n cur : Nat} (hfill : (infoOf n).message.map (fun b => b.cur_) = some cur)
    (hroom : Logger.LeavesRoom (4000 - cur) 4) : (infoOf n).LeavesRoom := by
  intro b hb
  rw [hb] at hfill
  have hcur : b.cur_ = cur := Option.some.inj hfill
  rw [FixedBuffer.avail, hcur]
  exact hroom

/-- A short message, one that leaves 6 bytes (so that the name of the file does not fit) and one that
    leaves 3 (so that the separator does not fit either). -/
def nearlyFull : List Statement := [infoOf 5, infoOf 3956, infoOf 3959]

theorem log_framed_nearlyFull : ∃ outs, log nearlyFull = some outs ∧ outs.length = 3 ∧
    (∀ out ∈ outs, Framed newline out) ∧ lines newline outs.flatten = outs := by
  have hplain : ∀ st ∈ nearlyFull, st.Plain := by
    intro st hst
    rcases List.mem_cons.mp hst with rfl | hst
    · exact infoOf_plain (by decide)
    rcases List.mem_cons.mp hst with rfl | hst
    · exact infoOf_plain (by decide)
    · rw [List.mem_singleton.mp hst]
      exact infoOf_plain (by decide)
  obtain ⟨outs, houts, hlength, hiff⟩ := log_framed nearlyFull hplain
  refine ⟨outs, houts, hlength, hiff.mpr ?_⟩
  intro st hst
  have hmem := executed_subset hst
  rcases List.mem_cons.mp hmem with rfl | hmem
  · exact infoOf_leavesRoom (show _ = some 43 by decide +kernel) (by decide)
  rcases List.mem_cons.mp hmem with rfl | hmem
  · exact infoOf_leavesRoom (show _ = some 3994 by decide +kernel) (by decide)
  · rw [List.mem_singleton.mp hmem]
    exact infoOf_leavesRoom (show _ = some 3997 by decide +kernel) (by decide)

end Logger

end Simplev
