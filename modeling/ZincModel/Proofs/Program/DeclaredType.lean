import ZincModel.Proofs.Program.Identity
import ZincModel.Proofs.Program.Quotation

/-!
# Declared types in programs

The declaration of a decision variable does not name its type, which only the literals of its bounds can tell. A bound
that is a double precision number has a fraction or an exponent (`IsFloatLiteral`), which the literal of an integer has
not; so a range of numbers and a range of integers have the same declaration only if both have the same integers for
bounds (`declaration_tells_type`). Then they can have it (`declarations_upToTen`).
-/

namespace ZincModel

/-- The value is an integer, a truth value or a finite number. -/
inductive Value.IsNumber : Value → Prop
  | int (n : Int) : IsNumber (.int n)
  | bool (b : Bool) : IsNumber (.bool b)
  | float (number : Option Nat) (negative : Bool) (code : Fin Double.infinityCode) :
      IsNumber (.float number (.finite negative code))

theorem Value.IsNumber.isShown {v : Value} (h : v.IsNumber) : v.IsShown .float := by
  cases h with
  | int n => exact .int (.inr rfl) n
  | bool b => exact .bool .float b
  | float number negative code => exact .float (.inr rfl) number negative code

/-- The value is a finite number of double precision. -/
def Value.IsFinite (v : Value) : Prop := ∃ number negative code, v = .float number (.finite negative code)

/-- The value is a text, an integer that can be written, or a number. -/
inductive Value.IsWord : Value → Prop
  | str (s : String) : IsWord (.str s)
  | int {n : Int} : Integer.fits n = true → IsWord (.int n)
  | float (number : Option Nat) (x : Double) : IsWord (.float number x)

/-- The variable is to be found between two bounds. -/
structure Variable.IsRange (v : Variable) (type : VariableType) (lo hi : Value) : Prop where
  type : v.type = type
  role : v.role = .decision lo hi

namespace Program

/-- The text is a numeral with a fraction or an exponent, behind a minus sign or not. -/
def IsFloatLiteral (w : List Char) : Prop :=
  ∃ negative x, w = Json.signed negative (Double.Numeral.text x) ∧ x.Proper

/-- The declaration of a range, by the literals of its bounds. -/
def rangeLine (lo hi name : List Char) : List Char :=
  line ("var ".toList ++ (lo ++ '.' :: '.' :: (hi ++ ':' :: ' ' :: (name ++ [';']))))

/-! ## Ranges with one line -/

/-- The declaration of a single decision variable is its line. -/
theorem declarations_singleton (s : Store) (r : Ref) :
    declarations s [] [r] [] = (decisionLine (s.get r)).map line := by
  rw [Model.declarations_eq]
  cases e : decisionLine (s.get r) <;> simp [e, Except.map]

theorem int_of_unnumbered {v : Value} {n : Int} (h : unnumbered v = .int n) : v = .int n := by
  cases v <;> cases h
  rfl

/-- A range of numbers with the line of a range of integers has its bounds and its name. -/
theorem eq_of_decisionLine {v w : Variable} {lo hi : Value} {m n : Int} {l : List Char}
    (numbers : v.IsRange .float lo hi) (hlo : lo.IsNumber) (hhi : hi.IsNumber)
    (integers : w.IsRange .int (.int m) (.int n)) (lineV : decisionLine v = .ok l) (lineW : decisionLine w = .ok l) :
    lo = .int m ∧ hi = .int n ∧ v.name = w.name := by
  obtain ⟨x, x', writtenLo, writtenHi, rfl⟩ := decisionLine_eq_ok numbers.role lineV
  obtain ⟨y, y', writtenM, writtenN, e⟩ := decisionLine_eq_ok integers.role lineW
  rw [numbers.type] at writtenLo writtenHi
  rw [integers.type] at writtenM writtenN
  have isInt (k : Int) : (Value.int k).IsShown .int := .int (.inl rfl) k
  obtain ⟨lows, e⟩ := unnumbered_unique hlo.isShown (isInt m) writtenLo writtenM (closes_dots _) (closes_dots _)
    (List.append_cancel_left e)
  obtain ⟨highs, e⟩ := unnumbered_unique hhi.isShown (isInt n) writtenHi writtenN (closes_colon _) (closes_colon _)
    (List.cons.inj (List.cons.inj e).2).2
  have names := List.append_cancel_right (List.cons.inj (List.cons.inj e).2).2
  exact ⟨int_of_unnumbered lows, int_of_unnumbered highs, String.toList_inj.1 names⟩

/-! ## Lines and quotes -/

theorem isFloatLiteral_literal {type : VariableType} (number : type = .int ∨ type = .float) {v : Value}
    (finite : v.IsFinite) {w : List Char} (h : literal type v = .ok w) : IsFloatLiteral w := by
  obtain ⟨counted, negative, code, rfl⟩ := finite
  obtain ⟨x, spelled, proper, -⟩ := Json.exists_numeral negative code
  have written : literal type (.float counted (.finite negative code)) = .ok (Double.finite negative code).text := by
    rcases number with rfl | rfl <;> rfl
  obtain rfl : (Double.finite negative code).text = w := Except.ok.inj (written.symm.trans h)
  exact ⟨negative, x, spelled, proper⟩

/-- A range has a line, in which its bounds stand. -/
theorem declarations_range {s : Store} {r : Ref} {type : VariableType} {lo hi : Value}
    (number : type = .int ∨ type = .float) (range : (s.get r).IsRange type lo hi) (writable : (s.get r).IsWritable) :
    ∃ w w', declarations s [] [r] [] = .ok (rangeLine w w' (s.name r).toList) ∧
      (lo.IsFinite → IsFloatLiteral w) ∧ (hi.IsFinite → IsFloatLiteral w') := by
  have decision : (s.get r).kind = .decision := by simp [Variable.kind, range.role]
  obtain ⟨l, written⟩ := decisionLine_isOk decision writable
  obtain ⟨w, w', low, high, rfl⟩ := decisionLine_eq_ok range.role written
  rw [range.type] at low high
  refine ⟨w, w', ?_, fun finite => isFloatLiteral_literal number finite low,
    fun finite => isFloatLiteral_literal number finite high⟩
  rw [declarations_singleton, written]
  rfl

/-- The text of a value stands between quotes as the value of a text variable. -/
theorem exists_quoted {v : Value} (h : v.IsWord) :
    ∃ t, v.text = .ok t ∧ literal .string v = .ok (Json.plainText t) := by
  cases h with
  | str s => exact ⟨_, rfl, rfl⟩
  | @int n fits =>
    have shown : (Value.int n).text = Integer.text n := rfl
    have text : (Value.int n).text = .ok (Integer.numeral n) := shown.trans (Value.Integer.text_eq fits)
    have quoted : literal .string (.int n) = (Value.int n).text.map Json.plainText := rfl
    exact ⟨_, text, by rw [quoted, text]; rfl⟩
  | float number x => exact ⟨_, rfl, rfl⟩

/-- The declared type can be told from a declaration. A range of numbers and a range of integers have different lines,
unless name and bounds are the same; a range has a line, where a bound that is a double precision number is written as
one; and the value of a text variable stands between quotes, if it is no truth value. Truth values are words, whatever
the type. -/
theorem declaration_tells_type :
    (∀ (s s' : Store) (r r' : Ref) (lo hi : Value) (m n : Int), (s.get r).IsRange .float lo hi → lo.IsNumber →
      hi.IsNumber → (s'.get r').IsRange .int (.int m) (.int n) →
      ¬(lo = .int m ∧ hi = .int n ∧ s.name r = s'.name r') →
      ∀ text, ¬(declarations s [] [r] [] = .ok text ∧ declarations s' [] [r'] [] = .ok text)) ∧
    (∀ (s : Store) (r : Ref) (type : VariableType) (lo hi : Value), type = .int ∨ type = .float →
      (s.get r).IsRange type lo hi → (s.get r).IsWritable → ∃ w w',
        declarations s [] [r] [] = .ok (rangeLine w w' (s.name r).toList) ∧
        (lo.IsFinite → IsFloatLiteral w) ∧ (hi.IsFinite → IsFloatLiteral w')) ∧
    (∀ v : Value, v.IsWord → ∃ inner t, literal .string v = .ok ('"' :: (inner ++ ['"'])) ∧ IsSealed inner ∧
      v.text = .ok t ∧ Json.read ('"' :: (inner ++ ['"'])) = .ok (.str (String.ofList t))) ∧
    (∀ type b, literal type (.bool b) = .ok (if b then "true" else "false").toList) := by
  refine ⟨?_, fun s r type lo hi => declarations_range, ?_, ?_⟩
  · rintro s s' r r' lo hi m n numbers hlo hhi integers differ text ⟨declared, declared'⟩
    rw [declarations_singleton, Except.map_eq_ok] at declared declared'
    obtain ⟨l, lineV, rfl⟩ := declared
    obtain ⟨l', lineW, e⟩ := declared'
    obtain rfl : l' = l := List.append_cancel_right e
    exact differ (eq_of_decisionLine numbers hlo hhi integers lineV lineW)
  · intro v word
    obtain ⟨t, text, written⟩ := exists_quoted word
    exact ⟨_, t, written, (inside_plainChars t).isSealed, text, read_plainText t⟩
  · intro type b
    cases type <;> cases b <;> rfl

/-- A store with a variable `x` of a type, to be found from a bound up to ten. -/
def upToTen (type : VariableType) (lo : Value) : Store := { declared := #[⟨"x", type, .decision lo (.int 10), .null⟩] }

theorem isRange_upToTen (type : VariableType) (lo : Value) : ((upToTen type lo).get 0).IsRange type lo (.int 10) :=
  ⟨rfl, rfl⟩

/-- Zero as a double precision number. -/
def zeroPoint : Value := .ofDouble (.finite false ⟨0, by decide⟩)

/-- Of two ranges from zero to ten, only the one of numbers shows a fraction. -/
theorem declaration_tells_type_zero :
    ((upToTen .float zeroPoint).get 0).IsRange .float zeroPoint (.int 10) ∧
      ((upToTen .int (.int 0)).get 0).IsRange .int (.int 0) (.int 10) ∧
      (∀ text, ¬(declarations (upToTen .float zeroPoint) [] [0] [] = .ok text ∧
        declarations (upToTen .int (.int 0)) [] [0] [] = .ok text)) ∧
      declarations (upToTen .float zeroPoint) [] [0] [] = .ok "var 0.0..10: x;\n".toList ∧
      (∃ w w', declarations (upToTen .float zeroPoint) [] [0] [] = .ok (rangeLine w w' ['x']) ∧ IsFloatLiteral w) ∧
      ∃ inner t, literal .string (.int 7) = .ok ('"' :: (inner ++ ['"'])) ∧ IsSealed inner ∧
        (Value.int 7).text = .ok t ∧ Json.read ('"' :: (inner ++ ['"'])) = .ok (.str (String.ofList t)) := by
  have numbers := isRange_upToTen .float zeroPoint
  have integers := isRange_upToTen .int (.int 0)
  refine ⟨numbers, integers, ?_, by decide +kernel, ?_, ?_⟩
  · exact declaration_tells_type.1 _ _ 0 0 _ _ 0 10 numbers (.float none false _) (.int 10) integers nofun
  · obtain ⟨w, w', declared, isLiteral, -⟩ :=
      declaration_tells_type.2.1 _ 0 _ _ _ (.inr rfl) numbers (by decide +kernel)
    exact ⟨w, w', declared, isLiteral ⟨none, false, _, rfl⟩⟩
  · exact declaration_tells_type.2.2.1 (.int 7) (.int (by decide +kernel))

/-- Where both bounds are the same integers the declarations need not differ. There are no quotes around a truth value
that a text variable has. -/
theorem declarations_upToTen :
    (({} : Store).declare
        { type := .str "float", kind := .str "decision", domain := .ofTuple [.int 0, .int 10], name := .str "x" }).2 =
      upToTen .float (.int 0) ∧
    (({} : Store).declare
        { type := .str "int", kind := .str "decision", domain := .ofTuple [.int 0, .int 10], name := .str "x" }).2 =
      upToTen .int (.int 0) ∧
    declarations (upToTen .float (.int 0)) [] [0] [] = .ok "var 0..10: x;\n".toList ∧
    declarations (upToTen .int (.int 0)) [] [0] [] = .ok "var 0..10: x;\n".toList ∧
    parameterLine ⟨"s", .string, .parameter .null, .bool true⟩ = .ok "string: s = true;".toList :=
  ⟨rfl, rfl, by decide +kernel, by decide +kernel, by decide +kernel⟩

end Program

end ZincModel
