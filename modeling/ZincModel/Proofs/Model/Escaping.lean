import ZincModel.Proofs.Json.Fitting
import ZincModel.Proofs.Model.Refusal
import ZincModel.Proofs.Yaml.Composing
import ZincModel.Proofs.Yaml.Constructing
import ZincModel.Proofs.Yaml.Tokens

/-!
# What becomes of texts of any form

A text is meant to be refused as a model whenever no model can be read from it. Wrong syntax and data of the wrong form
are, in JSON as in YAML. Some scalars are not: integers in JSON that have too many digits, and in YAML all that stand
for nothing by their tag, be it their own or given, and numbers of versions and of characters out of range. Nothing else
gets past (`readers_end`).
-/

namespace ZincModel

open Except (Ends)

namespace Yaml

/-- What keeps a YAML text from being read. -/
inductive Unread (s : Input) : Fault → Prop
  | scanned {f : Fault} : Unscanned s f → Unread s f
  | made {d : Document} {f : Fault} : readDocument (tokensOf s) = .ok (some d) → Unmade d.graph f → Unread s f

theorem read_ends (first : Nat) (s : Input) : Ends (Unread s) (fun _ => True) (read first s) := by
  unfold read
  have composed := readDocument_ends (P := Unscanned s) .yaml fun _ => tokensOf_faults
  cases document : readDocument (tokensOf s) with
  | error f =>
    rw [document] at composed
    exact .error (.scanned composed.fault)
  | ok found =>
    cases found with
    | none => exact .ok trivial
    | some d =>
      refine ((d.made_ends first).mono (fun _ => .made document) fun _ => id).bind fun m _ => ?_
      exact .ok trivial

variable {text : List Char}

theorem ofText_cases (text : List Char) : Input.ofText text = ⟨text, none⟩ ∨ Input.ofText text = ⟨[], some .yaml⟩ := by
  unfold Input.ofText Input.ofReadable
  split
  · exact .inl (by simp [Input.ofReadable])
  · exact .inr rfl

/-- What stops the readers of the tokens of a text that is at hand stands in it, unless it is wrong syntax. -/
theorem unscanned_ofText {f : Fault} (h : Unscanned (.ofText text) f) :
    f = .yaml ∨ (['\\', 'U'] <:+: text ∧ ∃ n, charOfNumber n = .error f) ∨
      ∃ n, f = .content (.integerUnreadable n) ∧ HasRun text n := by
  have within {w : List Char} (h : w <:+: (Input.ofText text).text) : w <:+: text := by
    rcases ofText_cases text with e | e
    · rwa [e] at h
    · rw [e] at h
      exact (List.eq_nil_of_infix_nil h) ▸ List.nil_infix
  cases h with
  | yaml => exact .inl rfl
  | beyond e =>
    rcases ofText_cases text with here | here
    · rw [here] at e
      cases e
    · rw [here] at e
      cases e
      exact .inl rfl
  | @character _ n escape number => exact .inr (.inl ⟨within escape, n, number⟩)
  | @version n run =>
    obtain ⟨long, w, inside, rest⟩ := run
    exact .inr (.inr ⟨n, rfl, long, w, within inside, rest⟩)

end Yaml

namespace Model

/-- What gets past where a model is read from a YAML text. -/
inductive Escapes (text : List Char) (first : Nat) : Fault → Prop
  /-- An escape for a character that there is not. -/
  | character {n : Nat} {f : Fault} : ['\\', 'U'] <:+: text → Yaml.charOfNumber n = .error f → Escapes text first f
  /-- A number of a version that has too many digits. -/
  | version {n : Nat} : HasRun text n → Escapes text first (.content (.integerUnreadable n))
  /-- A scalar that stands for nothing by its tag, or a mapping in the place of one. -/
  | scalar {d : Yaml.Document} {f : Fault} :
    Yaml.readDocument (Yaml.tokensOf (.ofText text)) = .ok (some d) → Yaml.Unmade d.graph f → Escapes text first f
  /-- An integer that cannot be shown, in data that are refused. -/
  | integer {d : Value} {next : Nat} :
    Yaml.read first (.ofText text) = .ok (d, next) → d.isShort = false →
    Escapes text first (.content .integerUnwritable)

theorem ofJson_ends (text : List Char) (s : Store) :
    Ends (fun f => f.IsOfModel ∨ ∃ n, f = .content (.integerUnreadable n) ∧ HasRun text n)
      (Restored s (ofJson text s).2) (ofJson text s).1 := by
  have reads := Json.read_ends text
  unfold ofJson
  split
  · next d e =>
    rw [e] at reads
    refine (ofValue_ends d s).2.mono ?_ fun _ => id
    rintro f (refused | ⟨-, long⟩)
    · exact .inl refused
    · rw [reads.result] at long
      cases long
  · exact .error (.inl trivial)
  · next n e =>
    rw [e] at reads
    exact .error (.inr ⟨n, rfl, reads.fault n rfl⟩)

theorem ofYaml_ends (text : List Char) (s : Store) :
    Ends (fun f => f.IsOfModel ∨ f ≠ .yaml ∧ Escapes text s.nextNumber f)
      (Restored s (ofYaml text s).2) (ofYaml text s).1 := by
  have reads := Yaml.read_ends s.nextNumber (.ofText text)
  unfold ofYaml
  split
  · next d next e =>
    have counted : s.Keeps { s with nextNumber := next } := ⟨Nat.le_refl _, fun _ _ => rfl⟩
    refine (ofValue_ends d { s with nextNumber := next }).2.mono ?_ fun m restored => ?_
    · rintro f (refused | ⟨rfl, long⟩)
      · exact .inl refused
      · exact .inr ⟨nofun, .integer e long⟩
    · exact
        { decision := fun r hr => (restored.decision r hr).earlier counted
          parameter := fun r hr => (restored.parameter r hr).earlier counted
          lawful := restored.lawful }
  · exact .error (.inl trivial)
  · next f wrong e =>
    rw [e] at reads
    refine .error (.inr ⟨wrong, ?_⟩)
    cases reads.fault with
    | scanned h =>
      rcases Yaml.unscanned_ofText h with rfl | ⟨escape, n, number⟩ | ⟨n, rfl, run⟩
      · exact (wrong rfl).elim
      · exact .character escape number
      · exact .version run
    | made document h => exact .scalar document h

/-- From every text a model that keeps all rules is read, or it is refused, unless a JSON text has an integer with too
many digits, or in a YAML text one of the things stands that get past. -/
theorem readers_end (text : List Char) (s : Store) :
    Ends (fun f => f.IsOfModel ∨ ∃ n, f = .content (.integerUnreadable n) ∧ HasRun text n)
        (Restored s (ofJson text s).2) (ofJson text s).1 ∧
      Ends (fun f => f.IsOfModel ∨ f ≠ .yaml ∧ Escapes text s.nextNumber f)
        (Restored s (ofYaml text s).2) (ofYaml text s).1 :=
  ⟨ofJson_ends text s, ofYaml_ends text s⟩

/-- A date in a month that there is not. -/
def strangeDate : List Char := "decision: 2001-13-01".toList

/-- A date that does not exist is not refused as a model. -/
theorem ofYaml_strangeDate : ∃ f, (ofYaml strangeDate {}).1 = .error f ∧ ¬f.IsOfModel := by
  refine ⟨.content (.calendar .month), ?_, id⟩
  decide +kernel

end Model

end ZincModel
