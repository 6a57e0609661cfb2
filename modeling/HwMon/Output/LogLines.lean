import HwMon.Lib.Lines
import HwMon.Output.Logger
import Mathlib.Data.List.Forall2

/-!
# The lines of the log

A message that leaves room for a newline and one more byte is a whole line. From 511
bytes on a message is cut to 511 bytes and gets no newline, though the buffer has
room for it, so the next message continues its line.
-/

namespace HwMon
set_option autoImplicit false

/-- The formatted body; nothing is shown of one that cannot be formatted. -/
def LogCall.text (call : LogCall) : List UInt8 := call.body.getD []

/-- The length of the message with its tag and without its newline. -/
def LogCall.length (call : LogCall) : Nat := (levelTag call.level).length + call.text.length

/-- A newline and one byte more fit behind the message. -/
def LogCall.Fits (call : LogCall) : Prop := call.length + 1 < logBufferSize

instance (call : LogCall) : Decidable call.Fits := inferInstanceAs (Decidable (_ < _))

/-- What the backend is passed of a call. -/
def LogCall.message (call : LogCall) : List UInt8 :=
  if call.Fits then levelTag call.level ++ call.text ++ [newline]
  else (levelTag call.level ++ call.text).take (logBufferSize - 1)

/-- The tag and the body, or the tag and a part of a body that does not fit with its newline. -/
def LogCall.IsLine (call : LogCall) (line : List UInt8) : Prop :=
  ∃ shown, line = levelTag call.level ++ shown ∧
    (shown = call.text ∨ shown <+: call.text ∧ logBufferSize < call.length + 1)

/-- Each call is one line, and a message is made of bytes of its own call, at most as many as
the buffer holds. -/
structure OneLineEach (minLevel : LogLevel) (calls : List LogCall) : Prop where
  lines : ∃ lines, (passed minLevel calls).flatten.splitOn newline = lines ++ [[]] ∧
    List.Forall₂ LogCall.IsLine calls lines
  bounded : ∀ message ∈ passed minLevel calls, message.length ≤ logBufferSize
  written : ∀ stack : LogCall → Mem,
    passed minLevel (calls.map fun call => { call with stack := stack call }) =
      passed minLevel calls

section Message
variable (call : LogCall)

theorem levelName_cases {P : List UInt8 → Prop} (level : LogLevel)
    (htrace : P [84, 82, 65, 67, 69]) (hdebug : P [68, 69, 66, 85, 71])
    (hinfo : P [73, 78, 70, 79]) (hwarning : P [87, 65, 82, 78, 73, 78, 71])
    (herror : P [69, 82, 82, 79, 82]) (hunknown : P [85, 78, 75, 78, 79, 87, 78]) :
    P (levelName level) := by
  unfold levelName
  split_ifs
  · exact htrace
  · exact hdebug
  · exact hinfo
  · exact hwarning
  · exact herror
  · exact hunknown

theorem levelTag_length (level : LogLevel) : (levelTag level).length ≤ 10 := by
  have hname : (levelName level).length ≤ 7 := by
    apply levelName_cases (P := fun name => name.length ≤ 7) <;> decide
  rw [levelTag, List.length_append, List.length_append, List.length_singleton]
  show 1 + (levelName level).length + 2 ≤ 10
  omega

theorem levelTag_noNewline (level : LogLevel) : newline ∉ levelTag level := by
  have hname : newline ∉ levelName level := by
    apply levelName_cases (P := fun name => newline ∉ name) <;> decide
  simp only [levelTag, List.mem_append, not_or]
  exact ⟨⟨by decide, hname⟩, by decide⟩

/-- The buffer behind the first `snprintf`. -/
def tagBuffer : Mem := store call.stack 0 (levelTag call.level ++ [0])

theorem snprintf_tag : snprintf call.stack 0 logBufferSize (some (levelTag call.level)) =
    (tagBuffer call, ((levelTag call.level).length : Int)) := by
  have hlen := levelTag_length call.level
  have hsize : logBufferSize - 1 = 511 := rfl
  rw [snprintf, if_neg (by decide), List.take_of_length_le (by omega)]
  rfl

theorem segment_tagBuffer :
    segment (tagBuffer call) 0 (levelTag call.level).length = levelTag call.level := by
  rw [tagBuffer, segment_store_take _ (by rw [List.length_append]; omega), List.take_left]

theorem segment_store_newline (buf : Mem) (total : Nat) :
    segment (store buf total [newline]) 0 (total + 1) = segment buf 0 total ++ [newline] := by
  have hlast : segment (store buf total [newline]) total 1 = [newline] :=
    segment_store buf total [newline]
  rw [segment_add, Nat.zero_add, hlast, segment_store_before _ (by omega)]

/-- The front of the buffer behind the second `snprintf`. -/
theorem segment_store_body {text : List UInt8} {room n : Nat} (hn : n ≤ text.length)
    (hroom : n ≤ room) :
    segment (store (tagBuffer call) (levelTag call.level).length (text.take room ++ [0])) 0
      ((levelTag call.level).length + n) = levelTag call.level ++ text.take n := by
  have hfits : n ≤ (text.take room).length := by
    rw [List.length_take]
    omega
  rw [segment_add, segment_store_before _ (by omega), segment_tagBuffer, Nat.zero_add,
    segment_store_take _ (by rw [List.length_append]; omega), List.take_append_of_le_length hfits,
    List.take_take, Nat.min_eq_left hroom]

/-- The length passed on, before the newline, is cut to one less than the buffer holds. -/
theorem total_eq {tag body : Nat} (htag : tag ≤ logBufferSize - 1) :
    (if (body : Int) > 0 then
      if tag + (body : Int).toNat > logBufferSize - 1 then logBufferSize - 1
      else tag + (body : Int).toNat
    else tag) = min (tag + body) (logBufferSize - 1) := by
  rw [Int.toNat_natCast]
  split_ifs
  · omega
  · omega
  · omega

theorem logMessage_eq : logMessage call = some call.message := by
  have htag := levelTag_length call.level
  have hsize : logBufferSize = 512 := rfl
  have hpos : ¬((levelTag call.level).length : Int) < 0 := by omega
  have hshort : ¬(levelTag call.level).length ≥ logBufferSize := by omega
  simp only [logMessage, snprintf_tag]
  rw [if_neg hpos]
  simp only [Int.toNat_natCast, if_neg hshort]
  cases hbody : call.body with
  | none =>
    have hfailed : ¬(-1 : Int) > 0 := by decide
    have htext : call.text = [] := by rw [LogCall.text, hbody]; rfl
    have hlength : call.length = (levelTag call.level).length := by
      rw [LogCall.length, htext]
      rfl
    have hroom : (levelTag call.level).length + 1 < logBufferSize := by omega
    have hfits : call.Fits := by rwa [← hlength] at hroom
    simp only [snprintf, hfailed, if_false]
    rw [LogCall.message, if_pos hroom, if_pos hfits, segment_store_newline, segment_tagBuffer,
      htext, List.append_nil]
  | some text =>
    have htext : call.text = text := by rw [LogCall.text, hbody]; rfl
    have hlength : call.length = (levelTag call.level).length + text.length := by
      rw [LogCall.length, htext]
    have hroom : ¬logBufferSize - (levelTag call.level).length = 0 := by omega
    simp only [snprintf, if_neg hroom]
    rw [total_eq (by omega), LogCall.message, htext, ← hlength]
    by_cases hfits : call.Fits
    · have hlt : call.length + 1 < logBufferSize := hfits
      rw [Nat.min_eq_left (by omega), if_pos hlt, if_pos hfits, segment_store_newline, hlength,
        segment_store_body call (Nat.le_refl _) (by omega), List.take_length]
    · have hge : ¬call.length + 1 < logBufferSize := hfits
      obtain ⟨n, hn⟩ : ∃ n, logBufferSize - 1 = (levelTag call.level).length + n :=
        Nat.exists_eq_add_of_le (by omega)
      rw [Nat.min_eq_right (by omega), if_neg (by omega), if_neg hfits, hn,
        segment_store_body call (by omega) (by omega), List.take_length_add_append]

theorem message_length_le : call.message.length ≤ logBufferSize := by
  rw [LogCall.message]
  split
  · rename_i hfits
    rw [LogCall.Fits, LogCall.length] at hfits
    rw [List.length_append, List.length_append, List.length_singleton]
    omega
  · exact Nat.le_trans (List.length_take_le _ _) (Nat.sub_le _ _)

theorem taggedText_noNewline {call : LogCall} (h : newline ∉ call.text) :
    newline ∉ levelTag call.level ++ call.text := by
  rw [List.mem_append]
  exact not_or.mpr ⟨levelTag_noNewline call.level, h⟩

theorem message_count {call : LogCall} (h : newline ∉ call.text) :
    call.message.count newline = if call.Fits then 1 else 0 := by
  have hnone := taggedText_noNewline h
  rw [LogCall.message]
  split
  · rw [List.count_append, List.count_eq_zero_of_not_mem hnone, List.count_singleton_self]
  · exact List.count_eq_zero_of_not_mem fun hmem => hnone (List.mem_of_mem_take hmem)

end Message

section Runs
variable {σ : Type} (minLevel : LogLevel) (calls : List LogCall)

/-- The messages of the calls that are not below the minimum level. -/
def shown : List (List UInt8) :=
  (calls.filter fun call => decide (¬call.level < minLevel)).map LogCall.message

theorem logWrite_loggerTo (write : List UInt8 → σ → σ) (call : LogCall) (out : σ) :
    logWrite (loggerTo write minLevel) call out =
      if call.level < minLevel then out else write call.message out := by
  simp only [logWrite, loggerTo, loggerSetBackend, loggerSetMinLevel, logMessage_eq]

/-- A run writes the messages one after the other. -/
theorem logWrites_shown (write : List UInt8 → σ → σ) (out : σ) :
    logWrites (loggerTo write minLevel) calls out =
      (shown minLevel calls).foldl (fun out message => write message out) out := by
  induction calls generalizing out with
  | nil => rfl
  | cons call calls ih =>
    unfold logWrites at ih ⊢
    rw [List.foldl_cons, logWrite_loggerTo, shown, List.filter_cons]
    by_cases hlow : call.level < minLevel
    · rw [if_pos hlow, if_neg (by simpa using hlow)]
      exact ih out
    · rw [if_neg hlow, if_pos (decide_eq_true hlow), List.map_cons, List.foldl_cons]
      exact ih (write call.message out)

theorem passed_shown : passed minLevel calls = shown minLevel calls := by
  rw [passed, logWrites_shown]
  refine (List.foldl_append_eq_append (f := fun message => [message])).trans ?_
  rw [List.nil_append, ← List.flatMap_def, List.flatMap_singleton']

/-- The console shows what its backend is passed. -/
theorem console_output (stdout : List UInt8) :
    logWrites (loggerSetMinLevel minLevel (loggerSetBackend (some consoleLoggerCreate) {})) calls
      stdout = stdout ++ (passed minLevel calls).flatten := by
  rw [passed_shown]
  refine (logWrites_shown minLevel calls consoleWrite stdout).trans ?_
  refine (List.foldl_append_eq_append (f := id)).trans ?_
  rw [List.map_id]

variable {minLevel} {calls}

theorem passed_eq (hlevel : ∀ call ∈ calls, ¬call.level < minLevel) :
    passed minLevel calls = calls.map LogCall.message := by
  rw [passed_shown, shown, List.filter_eq_self.mpr fun call hcall =>
    decide_eq_true (hlevel call hcall)]

end Runs

section Lines
variable {minLevel : LogLevel} {calls : List LogCall}
  (hlevel : ∀ call ∈ calls, ¬call.level < minLevel) (hbody : ∀ call ∈ calls, newline ∉ call.text)

theorem count_messages (hbody : ∀ call ∈ calls, newline ∉ call.text) :
    (calls.map LogCall.message).flatten.count newline =
      calls.countP fun call => decide call.Fits := by
  induction calls with
  | nil => rfl
  | cons call calls ih =>
    obtain ⟨hcall, hcalls⟩ := List.forall_mem_cons.mp hbody
    rw [List.map_cons, List.flatten_cons, List.count_append, message_count hcall, ih hcalls,
      List.countP_cons, Nat.add_comm]
    simp only [decide_eq_true_eq]

include hlevel hbody

/-- A log of one line for each call has room for every newline. -/
theorem fits_of_oneLineEach (h : OneLineEach minLevel calls) : ∀ call ∈ calls, call.Fits := by
  obtain ⟨lines, hlines, hcalls⟩ := h.lines
  have hcount := congrArg List.length hlines
  rw [length_splitOn, passed_eq hlevel, count_messages hbody, List.length_append,
    List.length_singleton, ← hcalls.length_eq] at hcount
  have hall := List.countP_eq_length.mp (Nat.succ_injective hcount)
  intro call hcall
  exact of_decide_eq_true (hall call hcall)

theorem lines_of_fits (hfits : ∀ call ∈ calls, call.Fits) :
    ∃ lines, (passed minLevel calls).flatten.splitOn newline = lines ++ [[]] ∧
      List.Forall₂ LogCall.IsLine calls lines := by
  refine ⟨calls.map fun call => levelTag call.level ++ call.text, ?_, ?_⟩
  · have hjoin : (calls.map LogCall.message).flatten =
        joinLines newline (calls.map fun call => levelTag call.level ++ call.text) := by
      rw [joinLines, List.flatMap_map, List.flatMap_def]
      apply congrArg
      apply List.map_congr_left
      intro call hcall
      exact if_pos (hfits call hcall)
    rw [passed_eq hlevel, hjoin]
    apply splitOn_joinLines
    intro line hline
    obtain ⟨call, hcall, rfl⟩ := List.mem_map.mp hline
    exact taggedText_noNewline (hbody call hcall)
  · rw [List.forall₂_map_right_iff, List.forall₂_same]
    intro call _
    exact ⟨call.text, rfl, Or.inl rfl⟩

/-- The log has one line for each call just when every message leaves room for its newline and
one byte more. -/
theorem oneLineEach_iff : OneLineEach minLevel calls ↔ ∀ call ∈ calls, call.Fits := by
  constructor
  · exact fits_of_oneLineEach hlevel hbody
  · intro hfits
    refine ⟨lines_of_fits hlevel hbody hfits, ?_, ?_⟩
    · intro message hmessage
      rw [passed_eq hlevel] at hmessage
      obtain ⟨call, -, rfl⟩ := List.mem_map.mp hmessage
      exact message_length_le call
    · intro stack
      have hlevel' : ∀ call ∈ calls.map fun call => { call with stack := stack call },
          ¬call.level < minLevel := by
        intro call hcall
        obtain ⟨original, horiginal, rfl⟩ := List.mem_map.mp hcall
        exact hlevel original horiginal
      rw [passed_eq hlevel', passed_eq hlevel, List.map_map]
      rfl

end Lines

/-- An error that says `CPUID`. -/
def cpuidError : LogCall := ⟨logError, some [67, 80, 85, 73, 68], memOf []⟩

theorem cpuidError_line : OneLineEach logInfo [cpuidError, cpuidError] :=
  (oneLineEach_iff (by decide) (by decide)).mpr (by decide)

/-- A message of 511 bytes. -/
def longInfo : LogCall := ⟨logInfo, some (List.replicate 504 65), memOf []⟩

/-- The newline of a message of 511 bytes is missing. -/
theorem longInfo_unterminated : ¬OneLineEach logInfo [longInfo, cpuidError] := by
  intro h
  have hfits := fits_of_oneLineEach (by decide) (by set_option maxRecDepth 8000 in decide) h
    longInfo List.mem_cons_self
  revert hfits
  set_option maxRecDepth 8000 in decide

end HwMon
