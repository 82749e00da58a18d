import ZincModel.Proofs.Text.Decoding
import ZincModel.Proofs.Text.Line
import ZincModel.Solution.Assignment

/-!
# Line ends in the output of a solver

Solvers end lines as their system does: with a line feed, with a carriage return and a line feed, or with a carriage
return. However the bytes between them are to be read, the text that is taken from the output is the same
(`artifactText_put`), and so is what is read in it and done with it (`interpret_lineEnd`).
-/

namespace ZincModel.Solution

open Text

/-- A line end other than the line feed. -/
inductive LineEnd where
  | crlf
  | cr
  deriving DecidableEq, Repr

def LineEnd.bytes : LineEnd → List UInt8
  | crlf => [0x0D, 0x0A]
  | cr => [0x0D]

/-- The line end in place of every line feed. -/
def LineEnd.put (e : LineEnd) (bytes : List UInt8) : List UInt8 :=
  bytes.flatMap fun b => if b = 0x0A then e.bytes else [b]

namespace LineEnd

theorem put_append (e : LineEnd) (before after : List UInt8) : e.put (before ++ after) = e.put before ++ e.put after :=
  List.flatMap_append

theorem put_lineFeed (e : LineEnd) (bytes : List UInt8) : e.put (0x0A :: bytes) = e.bytes ++ e.put bytes := rfl

theorem put_eq_self (e : LineEnd) {bytes : List UInt8} (h : 0x0A ∉ bytes) : e.put bytes = bytes := by
  induction bytes with
  | nil => rfl
  | cons b bytes ih =>
    rw [List.mem_cons, not_or] at h
    rw [put, List.flatMap_cons, if_neg (Ne.symm h.1)]
    exact congrArg (b :: ·) (ih h.2)

theorem lineFeed_not_mem_put_cr (bytes : List UInt8) : 0x0A ∉ cr.put bytes := by
  intro h
  obtain ⟨b, -, hb⟩ := List.mem_flatMap.1 h
  split at hb
  · simp [LineEnd.bytes] at hb
  · next other => exact other (List.mem_singleton.1 hb).symm

end LineEnd

/-! ## Text -/

theorem unifyNewlines_eq_self {s : List Char} (h : '\r' ∉ s) : unifyNewlines s = s := by
  induction s with
  | nil => rfl
  | cons c s ih =>
    rw [List.mem_cons, not_or] at h
    have other : c ≠ '\r' := Ne.symm h.1
    rw [unifyNewlines_cons fun e => absurd e other, if_neg other, ih h.2]

theorem not_mem_decodeLossy {bytes : List UInt8} {c : Char} (ascii : c.toNat < 0x80)
    (h : UInt8.ofNat c.toNat ∉ bytes) : c ∉ Utf8.decodeLossy bytes :=
  fun mem => h (Utf8.mem_of_mem_decodeLossy ascii mem)

theorem unifyNewlines_decodeLossy {bytes : List UInt8} (h : 0x0D ∉ bytes) :
    unifyNewlines (Utf8.decodeLossy bytes) = Utf8.decodeLossy bytes :=
  unifyNewlines_eq_self (not_mem_decodeLossy (by decide) h)

/-- A line end becomes one newline, between what the bytes on both sides of it give. -/
theorem unifyNewlines_lineEnd (e : LineEnd) (before bytes : List UInt8) :
    unifyNewlines (Utf8.decodeLossy (before ++ (e.bytes ++ e.put bytes))) =
      unifyNewlines (Utf8.decodeLossy before) ++ '\n' :: unifyNewlines (Utf8.decodeLossy (e.put bytes)) := by
  cases e with
  | crlf =>
    have decoded : Utf8.decodeLossy (before ++ 0x0D :: 0x0A :: LineEnd.crlf.put bytes) =
        Utf8.decodeLossy before ++ '\r' :: '\n' :: Utf8.decodeLossy (LineEnd.crlf.put bytes) := by
      rw [Utf8.decodeLossy_append_ascii (by decide), Utf8.decodeLossy_ascii (by decide)]
      rfl
    exact (congrArg unifyNewlines decoded).trans (unifyNewlines_append (by decide) _ _)
  | cr =>
    have decoded : Utf8.decodeLossy (before ++ 0x0D :: LineEnd.cr.put bytes) =
        Utf8.decodeLossy before ++ '\r' :: Utf8.decodeLossy (LineEnd.cr.put bytes) :=
      Utf8.decodeLossy_append_ascii (by decide) _ _
    have single : '\n' ∉ Utf8.decodeLossy (LineEnd.cr.put bytes) :=
      not_mem_decodeLossy (by decide) (LineEnd.lineFeed_not_mem_put_cr bytes)
    have apart : IsApart '\r' (Utf8.decodeLossy (LineEnd.cr.put bytes)) :=
      fun _ first => single (List.mem_of_mem_head? first)
    calc
      unifyNewlines (Utf8.decodeLossy (before ++ 0x0D :: LineEnd.cr.put bytes))
        = unifyNewlines (Utf8.decodeLossy before) ++
            unifyNewlines ('\r' :: Utf8.decodeLossy (LineEnd.cr.put bytes)) := by
          rw [decoded, unifyNewlines_append (by decide)]
      _ = _ := by rw [unifyNewlines_cons apart, if_pos rfl]

/-- The text does not tell which line ends the bytes have. -/
theorem unifyNewlines_put (e : LineEnd) {bytes : List UInt8} (h : 0x0D ∉ bytes) :
    unifyNewlines (Utf8.decodeLossy (e.put bytes)) = Utf8.decodeLossy bytes := by
  -- By the number of bytes: in front of the first line feed nothing changes, and behind it there are fewer.
  induction size : bytes.length using Nat.strongRecOn generalizing bytes with
  | ind n ih =>
    by_cases feed : 0x0A ∈ bytes
    · obtain ⟨before, after, rfl, first⟩ := List.eq_append_cons_of_mem feed
      rw [List.mem_append, List.mem_cons, not_or, not_or] at h
      obtain ⟨hbefore, -, hafter⟩ := h
      have shorter : after.length < n := by
        rw [← size, List.length_append, List.length_cons]
        omega
      have put : e.put (before ++ 0x0A :: after) = before ++ (e.bytes ++ e.put after) := by
        rw [e.put_append, e.put_eq_self first, e.put_lineFeed]
      calc
        unifyNewlines (Utf8.decodeLossy (e.put (before ++ 0x0A :: after)))
          = Utf8.decodeLossy before ++ '\n' :: Utf8.decodeLossy after := by
            rw [put, unifyNewlines_lineEnd, unifyNewlines_decodeLossy hbefore, ih _ shorter hafter rfl]
        _ = Utf8.decodeLossy (before ++ 0x0A :: after) := by
            rw [Utf8.decodeLossy_append_ascii (by decide)]
            rfl
    · rw [e.put_eq_self feed, unifyNewlines_decodeLossy h]

/-! ## Interpretation -/

theorem artifactText_put (e : LineEnd) {bytes : List UInt8} (h : 0x0D ∉ bytes) (isExecutable : Bool) :
    artifactText (some (.file (e.put bytes) isExecutable)) = artifactText (some (.file bytes isExecutable)) := by
  rw [artifactText, artifactText, unifyNewlines_put e h, unifyNewlines_decodeLossy h]

theorem firstLine_congr {a b : Option Entry} (h : artifactText a = artifactText b) : firstLine a = firstLine b := by
  rw [firstLine, firstLine, h]

/-- Nothing but the text of an output is interpreted. -/
theorem interpret_congr {a b : Option Entry} (h : artifactText a = artifactText b) (s : Store) (decision : List Ref) :
    interpret s decision a = interpret s decision b := by
  rw [interpret, interpret, firstLine_congr h, h]

/-- Outputs that differ in their line ends have the same first line, and they are interpreted in the same way: with
the same status or fault, the same values of variables and the same notes. -/
theorem interpret_lineEnd (e : LineEnd) {bytes : List UInt8} (h : 0x0D ∉ bytes) (isExecutable : Bool) (s : Store)
    (decision : List Ref) :
    firstLine (some (.file (e.put bytes) isExecutable)) = firstLine (some (.file bytes isExecutable)) ∧
      interpret s decision (some (.file (e.put bytes) isExecutable)) =
        interpret s decision (some (.file bytes isExecutable)) := by
  have same := artifactText_put e h isExecutable
  exact ⟨firstLine_congr same, interpret_congr same s decision⟩

/-- A line that says `UNSAT` and ends in the middle of a character of three bytes, and an empty line. -/
def truncatedBytes : List UInt8 := [0x55, 0x4E, 0x53, 0x41, 0x54, 0xE2, 0x82, 0x0A, 0x0A]

theorem interpret_lineEnd_truncated :
    0x0D ∉ truncatedBytes ∧
      (interpret {} [] (some (.file truncatedBytes false))).status = .ok .unsatisfiable ∧
      (interpret {} [] (some (.file (LineEnd.crlf.put truncatedBytes) false))).status = .ok .unsatisfiable ∧
      (interpret {} [] (some (.file (LineEnd.cr.put truncatedBytes) false))).status = .ok .unsatisfiable := by
  have single : 0x0D ∉ truncatedBytes := by decide
  have denied : (interpret {} [] (some (.file truncatedBytes false))).status = .ok .unsatisfiable := by
    with_unfolding_all rfl
  have crlf := (interpret_lineEnd .crlf single false {} []).2
  have cr := (interpret_lineEnd .cr single false {} []).2
  exact ⟨single, denied, by rw [crlf, denied], by rw [cr, denied]⟩

end ZincModel.Solution
