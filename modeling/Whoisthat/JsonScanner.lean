import Mathlib.Data.FinEnum
import Mathlib.Tactic.SplitIfs
import Whoisthat.Utf8

/-!
# Scanning JSON

The state machine of a JSON scanner: a place in the grammar and the composites
that are open. Outside strings no slash is read and only a quotation mark leads
into a string; a line break never stands in one. So the places where a slash may
stand are known line by line.
-/

set_option autoImplicit false

namespace Whoisthat.JsonScanner
open Whoisthat.Utf8 (Bytes)

section Machine

/-- What is open around the value. -/
inductive Composite where
  | objectKey
  | objectValue
  | arrayValue
  deriving DecidableEq

inductive Place where
  | beginValue
  | beginValueOrEmpty
  | beginString
  | beginStringOrEmpty
  | endValue
  | endTop
  | inString
  | inStringEsc
  /-- Hexadecimal digits of an escape still to come, less one. -/
  | inStringEscU (left : ℕ)
  | neg
  | zero
  | digits
  | dot
  | dotDigits
  | exp
  | expSign
  | expDigits
  | t
  | tr
  | tru
  | f
  | fa
  | fal
  | fals
  | n
  | nu
  | nul
  deriving DecidableEq

abbrev State := Place × List Composite

def space (c : UInt8) : Bool := c = 0x20 || c = 0x09 || c = 0x0D || c = 0x0A

def decimal (c : UInt8) : Bool := 0x30 ≤ c && c ≤ 0x39

def hexadecimal (c : UInt8) : Bool :=
  decimal c || (0x61 ≤ c && c ≤ 0x66) || (0x41 ≤ c && c ≤ 0x46)

def maxNestingDepth : ℕ := 10000

def push (place : Place) (kind : Composite) (opened : List Composite) : Option State :=
  if opened.length < maxNestingDepth then some (place,kind::opened) else none

def pop (opened : List Composite) : Option State :=
  some (if opened = [] then .endTop else .endValue,opened)

def endValue (c : UInt8) : List Composite → Option State
  | [] => if space c then some (.endTop,[]) else none
  | kind::opened =>
    if space c then some (.endValue,kind::opened)
    else match kind with
      | .objectKey => if c = 0x3A then some (.beginValue,.objectValue::opened) else none
      | .objectValue =>
        if c = 0x2C then some (.beginString,.objectKey::opened)
        else if c = 0x7D then pop opened
        else none
      | .arrayValue =>
        if c = 0x2C then some (.beginValue,.arrayValue::opened)
        else if c = 0x5D then pop opened
        else none

def beginValue (opened : List Composite) (c : UInt8) : Option State :=
  if space c then some (.beginValue,opened)
  else if c = 0x7B then push .beginStringOrEmpty .objectKey opened
  else if c = 0x5B then push .beginValueOrEmpty .arrayValue opened
  else if c = 0x22 then some (.inString,opened)
  else if c = 0x2D then some (.neg,opened)
  else if c = 0x30 then some (.zero,opened)
  else if c = 0x74 then some (.t,opened)
  else if c = 0x66 then some (.f,opened)
  else if c = 0x6E then some (.n,opened)
  else if decimal c then some (.digits,opened)
  else none

def beginString (opened : List Composite) (c : UInt8) : Option State :=
  if space c then some (.beginString,opened)
  else if c = 0x22 then some (.inString,opened)
  else none

def afterZero (opened : List Composite) (c : UInt8) : Option State :=
  if c = 0x2E then some (.dot,opened)
  else if c = 0x65 || c = 0x45 then some (.exp,opened)
  else endValue c opened

def expSign (opened : List Composite) (c : UInt8) : Option State :=
  if decimal c then some (.expDigits,opened) else none

/-- The next letter of a literal name. -/
def letter (wanted : UInt8) (place : Place) (opened : List Composite) (c : UInt8) : Option State :=
  if c = wanted then some (place,opened) else none

/-- One byte; `none` is a syntax error. -/
def step : State → UInt8 → Option State
  | (.beginValue,opened),c => beginValue opened c
  | (.beginValueOrEmpty,opened),c =>
    if space c then some (.beginValueOrEmpty,opened)
    else if c = 0x5D then endValue c opened
    else beginValue opened c
  | (.beginString,opened),c => beginString opened c
  | (.beginStringOrEmpty,opened),c =>
    if space c then some (.beginStringOrEmpty,opened)
    else if c = 0x7D then endValue c (.objectValue::opened.tail)
    else beginString opened c
  | (.endValue,opened),c => endValue c opened
  | (.endTop,opened),c => if space c then some (.endTop,opened) else none
  | (.inString,opened),c =>
    if c = 0x22 then some (.endValue,opened)
    else if c = 0x5C then some (.inStringEsc,opened)
    else if c < 0x20 then none
    else some (.inString,opened)
  | (.inStringEsc,opened),c =>
    if c ∈ [0x62,0x66,0x6E,0x72,0x74,0x5C,0x2F,0x22] then some (.inString,opened)
    else if c = 0x75 then some (.inStringEscU 3,opened)
    else none
  | (.inStringEscU 0,opened),c => if hexadecimal c then some (.inString,opened) else none
  | (.inStringEscU (left+1),opened),c =>
    if hexadecimal c then some (.inStringEscU left,opened) else none
  | (.neg,opened),c =>
    if c = 0x30 then some (.zero,opened)
    else if decimal c then some (.digits,opened)
    else none
  | (.zero,opened),c => afterZero opened c
  | (.digits,opened),c => if decimal c then some (.digits,opened) else afterZero opened c
  | (.dot,opened),c => if decimal c then some (.dotDigits,opened) else none
  | (.dotDigits,opened),c =>
    if decimal c then some (.dotDigits,opened)
    else if c = 0x65 || c = 0x45 then some (.exp,opened)
    else endValue c opened
  | (.exp,opened),c =>
    if c = 0x2B || c = 0x2D then some (.expSign,opened) else expSign opened c
  | (.expSign,opened),c => expSign opened c
  | (.expDigits,opened),c =>
    if decimal c then some (.expDigits,opened) else endValue c opened
  | (.t,opened),c => letter 0x72 .tr opened c
  | (.tr,opened),c => letter 0x75 .tru opened c
  | (.tru,opened),c => letter 0x65 .endValue opened c
  | (.f,opened),c => letter 0x61 .fa opened c
  | (.fa,opened),c => letter 0x6C .fal opened c
  | (.fal,opened),c => letter 0x73 .fals opened c
  | (.fals,opened),c => letter 0x65 .endValue opened c
  | (.n,opened),c => letter 0x75 .nu opened c
  | (.nu,opened),c => letter 0x6C .nul opened c
  | (.nul,opened),c => letter 0x6C .endValue opened c

def run (st : State) : Bytes → Option State
  | [] => some st
  | c::text => (step st c).bind fun st' => run st' text

def start : State := (.beginValue,[])

/-- The text may end here: a last space would be read at the top. -/
def ended (st : State) : Bool :=
  st.1 = .endTop || ((step st 0x20).map Prod.fst = some .endTop)

def valid (text : Bytes) : Bool :=
  match run start text with
  | some st => ended st
  | none => false

end Machine

section Strings

def quoting : Place → Bool
  | .inString => true
  | .inStringEsc => true
  | .inStringEscU _ => true
  | _ => false

variable {st st' : State} {c : UInt8}

theorem run_append (st : State) (a b : Bytes) :
    run st (a ++ b) = (run st a).bind fun st' => run st' b := by
  induction a generalizing st with
  | nil => rfl
  | cons c a ih =>
    rw [List.cons_append,run,run]
    cases step st c with
    | none => rfl
    | some st' => exact ih st'

/-- A byte that may stand outside strings. -/
def plain (c : UInt8) : Bool := c ≠ 0x2F && c % 64 ≠ 62 && c < 0x80

/-- What a byte outside strings can be and lead to. -/
def Outside (c : UInt8) (st' : State) : Prop :=
  plain c = true ∧ (c ≠ 0x22 → quoting st'.1 = false)

theorem plain_space : ∀ c : UInt8, space c = true → plain c = true := by decide +kernel

theorem plain_decimal : ∀ c : UInt8, decimal c = true → plain c = true := by decide +kernel

theorem outside_some {place : Place} {opened : List Composite} (hc : plain c = true)
    (hplace : c ≠ 0x22 → quoting place = false) (h : some (place,opened) = some st') :
    Outside c st' := by
  rw [← Option.some.inj h]
  exact ⟨hc,hplace⟩

theorem outside_pop {opened : List Composite} (hc : plain c = true)
    (h : pop opened = some st') : Outside c st' := by
  refine outside_some hc (fun _ => ?_) h
  split <;> rfl

theorem outside_push {place : Place} {kind : Composite} {opened : List Composite}
    (hc : plain c = true) (hplace : quoting place = false)
    (h : push place kind opened = some st') : Outside c st' := by
  unfold push at h
  split at h
  · exact outside_some hc (fun _ => hplace) h
  · cases h

theorem outside_endValue {opened : List Composite} (h : endValue c opened = some st') :
    Outside c st' := by
  cases opened with
  | nil =>
    rw [endValue] at h
    split_ifs at h with hspace
    exact outside_some (plain_space c hspace) (fun _ => rfl) h
  | cons kind opened =>
    unfold endValue at h
    simp only at h
    by_cases hspace : space c = true
    · rw [if_pos hspace] at h
      exact outside_some (plain_space c hspace) (fun _ => rfl) h
    · rw [if_neg hspace] at h
      cases kind with
      | objectKey =>
        simp only at h
        split_ifs at h with hcolon
        exact outside_some (hcolon ▸ rfl) (fun _ => rfl) h
      | objectValue =>
        simp only at h
        split_ifs at h with hcomma hclose
        · exact outside_some (hcomma ▸ rfl) (fun _ => rfl) h
        · exact outside_pop (hclose ▸ rfl) h
      | arrayValue =>
        simp only at h
        split_ifs at h with hcomma hclose
        · exact outside_some (hcomma ▸ rfl) (fun _ => rfl) h
        · exact outside_pop (hclose ▸ rfl) h

theorem outside_beginValue {opened : List Composite} (h : beginValue opened c = some st') :
    Outside c st' := by
  unfold beginValue at h
  split_ifs at h with hspace hbrace hbracket hquote hminus hzero ht hf hn hdigit
  · exact outside_some (plain_space c hspace) (fun _ => rfl) h
  · exact outside_push (hbrace ▸ rfl) rfl h
  · exact outside_push (hbracket ▸ rfl) rfl h
  · exact outside_some (hquote ▸ rfl) (fun hc => absurd hquote hc) h
  · exact outside_some (hminus ▸ rfl) (fun _ => rfl) h
  · exact outside_some (hzero ▸ rfl) (fun _ => rfl) h
  · exact outside_some (ht ▸ rfl) (fun _ => rfl) h
  · exact outside_some (hf ▸ rfl) (fun _ => rfl) h
  · exact outside_some (hn ▸ rfl) (fun _ => rfl) h
  · exact outside_some (plain_decimal c hdigit) (fun _ => rfl) h

theorem outside_beginString {opened : List Composite} (h : beginString opened c = some st') :
    Outside c st' := by
  unfold beginString at h
  split_ifs at h with hspace hquote
  · exact outside_some (plain_space c hspace) (fun _ => rfl) h
  · exact outside_some (hquote ▸ rfl) (fun hc => absurd hquote hc) h

theorem plain_exp (h : (decide (c = 0x65) || decide (c = 0x45)) = true) : plain c = true := by
  rcases (Bool.or_eq_true _ _).mp h with he | he <;> rw [of_decide_eq_true he] <;> rfl

theorem outside_afterZero {opened : List Composite} (h : afterZero opened c = some st') :
    Outside c st' := by
  unfold afterZero at h
  split_ifs at h with hdot hexp
  · exact outside_some (hdot ▸ rfl) (fun _ => rfl) h
  · exact outside_some (plain_exp hexp) (fun _ => rfl) h
  · exact outside_endValue h

theorem outside_expSign {opened : List Composite} (h : expSign opened c = some st') :
    Outside c st' := by
  unfold expSign at h
  split_ifs at h with hdigit
  exact outside_some (plain_decimal c hdigit) (fun _ => rfl) h

theorem outside_letter {wanted : UInt8} {place : Place} {opened : List Composite}
    (hwanted : plain wanted = true) (hplace : quoting place = false)
    (h : letter wanted place opened c = some st') : Outside c st' := by
  unfold letter at h
  split_ifs at h with hc
  exact outside_some (hc ▸ hwanted) (fun _ => hplace) h

/-- Outside strings a step reads no slash, and only a quotation mark opens one. -/
theorem step_outside (hst : quoting st.1 = false) (h : step st c = some st') : Outside c st' := by
  obtain ⟨place,opened⟩ := st
  cases place with
  | beginValue => exact outside_beginValue h
  | beginValueOrEmpty =>
    rw [step] at h
    split_ifs at h with hspace hclose
    · exact outside_some (plain_space c hspace) (fun _ => rfl) h
    · exact outside_endValue h
    · exact outside_beginValue h
  | beginString => exact outside_beginString h
  | beginStringOrEmpty =>
    rw [step] at h
    split_ifs at h with hspace hclose
    · exact outside_some (plain_space c hspace) (fun _ => rfl) h
    · exact outside_endValue h
    · exact outside_beginString h
  | endValue => exact outside_endValue h
  | endTop =>
    rw [step] at h
    split_ifs at h with hspace
    exact outside_some (plain_space c hspace) (fun _ => rfl) h
  | inString => cases hst
  | inStringEsc => cases hst
  | inStringEscU => cases hst
  | neg =>
    rw [step] at h
    split_ifs at h with hzero hdigit
    · exact outside_some (hzero ▸ rfl) (fun _ => rfl) h
    · exact outside_some (plain_decimal c hdigit) (fun _ => rfl) h
  | zero => exact outside_afterZero h
  | digits =>
    rw [step] at h
    split_ifs at h with hdigit
    · exact outside_some (plain_decimal c hdigit) (fun _ => rfl) h
    · exact outside_afterZero h
  | dot =>
    rw [step] at h
    split_ifs at h with hdigit
    exact outside_some (plain_decimal c hdigit) (fun _ => rfl) h
  | dotDigits =>
    rw [step] at h
    split_ifs at h with hdigit hexp
    · exact outside_some (plain_decimal c hdigit) (fun _ => rfl) h
    · exact outside_some (plain_exp hexp) (fun _ => rfl) h
    · exact outside_endValue h
  | exp =>
    rw [step] at h
    split_ifs at h with hsign
    · refine outside_some ?_ (fun _ => rfl) h
      rcases (Bool.or_eq_true _ _).mp hsign with he | he <;> rw [of_decide_eq_true he] <;> rfl
    · exact outside_expSign h
  | expSign => exact outside_expSign h
  | expDigits =>
    rw [step] at h
    split_ifs at h with hdigit
    · exact outside_some (plain_decimal c hdigit) (fun _ => rfl) h
    · exact outside_endValue h
  | t => exact outside_letter rfl rfl h
  | tr => exact outside_letter rfl rfl h
  | tru => exact outside_letter rfl rfl h
  | f => exact outside_letter rfl rfl h
  | fa => exact outside_letter rfl rfl h
  | fal => exact outside_letter rfl rfl h
  | fals => exact outside_letter rfl rfl h
  | n => exact outside_letter rfl rfl h
  | nu => exact outside_letter rfl rfl h
  | nul => exact outside_letter rfl rfl h

/-- A line break ends every line outside strings. -/
theorem step_lineBreak (h : step st 0x0A = some st') : quoting st'.1 = false := by
  cases hst : quoting st.1 with
  | false => exact (step_outside hst h).2 (by decide)
  | true =>
    obtain ⟨place,opened⟩ := st
    cases place with
    | inString => cases h
    | inStringEsc => cases h
    | inStringEscU left => cases left <;> cases h
    | _ => cases hst

/-- No quotation mark since the last line break. -/
def Clear (text : Bytes) : Prop := ∀ b ∈ text.reverse.takeWhile (· ≠ 0x0A), b ≠ 0x22

theorem clear_suffix {text rest : Bytes} (hs : rest <:+ text) (h : Clear text) : Clear rest := by
  intro b hb
  obtain ⟨more,hmore⟩ := List.reverse_prefix.mpr hs
  refine h b ?_
  rw [← hmore,List.takeWhile_append]
  split
  · exact List.mem_append_left _ ((List.takeWhile_sublist _).subset hb)
  · exact hb

theorem clear_append {text more : Bytes} (h : Clear text) (hmore : ∀ b ∈ more, b ≠ 0x22) :
    Clear (text ++ more) := by
  intro b hb
  rw [List.reverse_append,List.takeWhile_append] at hb
  split at hb
  · rcases List.mem_append.mp hb with hb | hb
    · exact hmore b (List.mem_reverse.mp hb)
    · exact h b hb
  · exact hmore b (List.mem_reverse.mp ((List.takeWhile_sublist _).subset hb))

theorem clear_lineBreak (text : Bytes) : Clear (text ++ [0x0A]) := by
  intro b hb
  rw [List.reverse_append,List.reverse_singleton,List.singleton_append,
    List.takeWhile_cons_of_neg (by decide)] at hb
  cases hb

theorem run_clear {text : Bytes} (h : Clear text) (hst : quoting st.1 = false)
    (hrun : run st text = some st') : quoting st'.1 = false := by
  induction text using List.reverseRec generalizing st' with
  | nil =>
    cases hrun
    exact hst
  | append_singleton text b ih =>
    rw [run_append] at hrun
    obtain ⟨mid,hmid,hlast⟩ := Option.bind_eq_some_iff.mp hrun
    have hstep : step mid b = some st' := by
      simpa [run] using hlast
    by_cases hb : b = 0x0A
    · exact step_lineBreak (hb ▸ hstep)
    · have htake : (text ++ [b]).reverse.takeWhile (· ≠ 0x0A) =
          b :: text.reverse.takeWhile (· ≠ 0x0A) := by
        rw [List.reverse_append,List.reverse_singleton,List.singleton_append,
          List.takeWhile_cons_of_pos (by simpa using hb)]
      have hclear : Clear text := fun x hx => h x (by rw [htake]; exact List.mem_cons_of_mem b hx)
      have hquote : b ≠ 0x22 := h b (by rw [htake]; exact List.mem_cons_self)
      exact (step_outside (ih hclear hmid) hstep).2 hquote

/-- Every slash in a JSON text has a quotation mark before it on its line. -/
theorem invalid_of_slash {before after : Bytes} (h : Clear before) :
    valid (before ++ 0x2F::after) = false := by
  have hnone : run start (before ++ 0x2F::after) = none := by
    rw [run_append]
    cases hrun : run start before with
    | none => rfl
    | some mid =>
      cases hslash : step mid 0x2F with
      | none => simp [run,hslash]
      | some st' => exact absurd (step_outside (run_clear h rfl hrun) hslash).1 (by decide)
  rw [valid,hnone]

theorem ended_outside (h : ended st = true) : quoting st.1 = false := by
  obtain ⟨place,opened⟩ := st
  cases place with
  | inString => cases h
  | inStringEsc => cases h
  | inStringEscU left => cases left <;> cases h
  | _ => rfl

/-- Only a quotation mark leads out of a string. -/
theorem step_closing (hst : quoting st.1 = true) (h : step st c = some st')
    (hclosed : quoting st'.1 = false) : c = 0x22 := by
  obtain ⟨place,opened⟩ := st
  cases place with
  | inString =>
    rw [step] at h
    split_ifs at h with hquote
    · exact hquote
    all_goals cases h; cases hclosed
  | inStringEsc =>
    rw [step] at h
    split_ifs at h <;> cases h <;> cases hclosed
  | inStringEscU left =>
    cases left with
    | zero =>
      rw [step] at h
      split_ifs at h
      cases h
      cases hclosed
    | succ left =>
      rw [step] at h
      split_ifs at h
      cases h
      cases hclosed
  | _ => cases hst

theorem valid_run {text : Bytes} (h : valid text = true) :
    ∃ st, run start text = some st ∧ quoting st.1 = false := by
  unfold valid at h
  split at h
  · rename_i st hst
    exact ⟨st,hst,ended_outside h⟩
  · cases h

/-- A JSON text is not empty, and it begins and ends outside strings. -/
theorem valid_ends {text : Bytes} (h : valid text = true) :
    (∃ b rest, text = b::rest ∧ plain b = true) ∧ ∃ rest b, text = rest ++ [b] ∧ plain b = true := by
  obtain ⟨st,hrun,hst⟩ := valid_run h
  constructor
  · cases text with
    | nil => cases h
    | cons b rest =>
      obtain ⟨mid,hmid,-⟩ := Option.bind_eq_some_iff.mp hrun
      have hstart : quoting start.1 = false := rfl
      exact ⟨b,rest,rfl,(step_outside hstart hmid).1⟩
  · induction text using List.reverseRec with
    | nil => cases h
    | append_singleton rest b _ =>
      refine ⟨rest,b,rfl,?_⟩
      rw [run_append] at hrun
      obtain ⟨mid,-,hlast⟩ := Option.bind_eq_some_iff.mp hrun
      have hstep : step mid b = some st := by
        simpa [run] using hlast
      cases hmid : quoting mid.1 with
      | false => exact (step_outside hmid hstep).1
      | true => rw [step_closing hmid hstep hst]; decide

end Strings

end Whoisthat.JsonScanner
