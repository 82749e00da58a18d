import ZincModel.Proofs.Json.Canonical
import ZincModel.Proofs.Model.JsonRoundTrip

/-!
# One JSON text for one document

The JSON text of a model depends on its document alone, and not on the order that dictionaries in it have: models with
alike documents have the same text (`toJson_of_alike`), whatever stores their variables are in.
-/

namespace ZincModel.Model

variable {s s' : Store} {m m' : Model}

/-- JSON has all values and bounds of the model; bounds may be lists. -/
def IsPlain (s : Store) (m : Model) : Prop := ∀ r ∈ m.members, (s.get r).IsPlain

/-- JSON has the document then. -/
theorem IsPlain.toValue (h : m.IsPlain s) : Json.Plain [] (m.toValue s) := by
  rw [toValue_eq]
  apply Blueprint.plain_toValue
  intro v hv
  rcases List.mem_append.1 hv with hv | hv <;> obtain ⟨r, hr, rfl⟩ := List.mem_map.1 hv
  · exact (h r (List.mem_append_left _ hr)).essence
  · exact (h r (List.mem_append_right _ hr)).essence

/-- Two models whose documents are the same, but for the order of entries in dictionaries at any depth, have the same
JSON text. -/
theorem toJson_of_alike (plain : m.IsPlain s) (plain' : m'.IsPlain s')
    (alike : Value.Alike (m.toValue s) (m'.toValue s')) :
    ∃ text, m.toJson s = .ok text ∧ m'.toJson s' = .ok text := by
  obtain ⟨text, written, -⟩ := Json.write_reads plain.toValue
  have same : m'.toJson s' = m.toJson s := (Json.writeIn_alike plain.toValue plain'.toValue alike).symm
  exact ⟨text, written, same.trans written⟩

/-! ## Entries in another order -/

/-- Two entries, the second one with a dictionary of its own. -/
def settings : Value :=
  .ofFields [("b", .ofList [.null, .int 7]), ("a", .ofFields [("y", .int 1), ("x", .bool true)])]

/-- The same entries the other way round, in the inner dictionary as well. -/
def settingsReversed : Value :=
  .ofFields [("a", .ofFields [("x", .bool true), ("y", .int 1)]), ("b", .ofList [.null, .int 7])]

theorem plain_settings : Json.Plain [] settings ∧ Json.Plain [] settingsReversed := by
  have one : Json.Plain [] (.int 1) := .int (by decide +kernel)
  have seven : Json.Plain [] (.int 7) := .int (by decide +kernel)
  have row : Json.Plain [] (.ofList [.null, .int 7]) := .list rfl (by simpa using ⟨.null, seven⟩)
  have inner : Json.Plain [] (.ofFields [("y", .int 1), ("x", .bool true)]) :=
    .dict rfl ⟨by simp, by simp⟩ (by simpa using ⟨one, .bool true⟩)
  have inner' : Json.Plain [] (.ofFields [("x", .bool true), ("y", .int 1)]) :=
    .dict rfl ⟨by simp, by simp⟩ (by simpa using ⟨.bool true, one⟩)
  exact ⟨.dict rfl ⟨by simp, by simp⟩ (by simpa using ⟨row, inner⟩),
    .dict rfl ⟨by simp, by simp⟩ (by simpa using ⟨inner', row⟩)⟩

theorem alike_settings : Value.Alike settings settingsReversed := by
  let row : Value := .ofList [.null, .int 7]
  let inner : Value := .ofFields [("x", .bool true), ("y", .int 1)]
  have alike : Value.Alike (.ofFields [("y", .int 1), ("x", .bool true)]) inner :=
    .dict none none rfl (.cons (.refl _) (.cons (.refl _) .nil)) (.swap _ _ _)
  have swapped : [(Value.str "b", row), (.str "a", inner)].Perm [(.str "a", inner), (.str "b", row)] := .swap _ _ _
  refine .dict none none ?_ ?_ swapped
  · rfl
  · exact .cons (.refl row) (.cons alike .nil)

theorem isPlain_setting {value : Value} (h : value ≠ .null) (plain : Json.Plain [] value) :
    setting.IsPlain (settingStore value) := by
  intro r hr
  obtain rfl : r = 0 := by simpa [members, setting] using hr
  rw [get_settingStore h]
  exact plain

theorem toValue_setting {value : Value} (h : value ≠ .null) :
    setting.toValue (settingStore value) = .ofFields
      [("parameter", .ofList [.ofFields [("name", .str "n"), ("type", .str "int"), ("value", value)]]),
       ("decision", .ofList []), ("constraints", .ofList []), ("objective", .str "satisfy"),
       ("objective_variable", .null)] := by
  simp [toValue, setting, get_settingStore h, variableData, VariableType.spelling, Objective.spelling]

theorem alike_setting {value value' : Value} (h : value ≠ .null) (h' : value' ≠ .null)
    (alike : Value.Alike value value') :
    Value.Alike (setting.toValue (settingStore value)) (setting.toValue (settingStore value')) := by
  rw [toValue_setting h, toValue_setting h']
  have described : Value.Alike (.ofFields [("name", .str "n"), ("type", .str "int"), ("value", value)])
      (.ofFields [("name", .str "n"), ("type", .str "int"), ("value", value')]) :=
    .ofFields (.cons ⟨rfl, .refl _⟩ (.cons ⟨rfl, .refl _⟩ (.cons ⟨rfl, alike⟩ .nil)))
  exact .ofFields (.cons ⟨rfl, .list _ _ (.cons described .nil)⟩ (List.forall₂_same.2 fun _ _ => ⟨rfl, .refl _⟩))

/-- The order of entries makes no difference, in the inner dictionary either. -/
theorem toJson_settings :
    (Constructed (settingStore settings) setting ∧ Constructed (settingStore settingsReversed) setting) ∧
      (setting.IsPlain (settingStore settings) ∧ setting.IsPlain (settingStore settingsReversed)) ∧
      Value.Alike (setting.toValue (settingStore settings)) (setting.toValue (settingStore settingsReversed)) ∧
      ∃ text, setting.toJson (settingStore settings) = .ok text ∧
        setting.toJson (settingStore settingsReversed) = .ok text := by
  have given : settings ≠ .null := nofun
  have given' : settingsReversed ≠ .null := nofun
  have plain := isPlain_setting given plain_settings.1
  have plain' := isPlain_setting given' plain_settings.2
  have alike := alike_setting given given' alike_settings
  exact ⟨⟨constructed_setting given, constructed_setting given'⟩, ⟨plain, plain'⟩, alike,
    toJson_of_alike plain plain' alike⟩

end ZincModel.Model
