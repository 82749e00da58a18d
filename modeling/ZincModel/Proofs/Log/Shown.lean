import ZincModel.Proofs.Log.Setups

/-!
# What a log shows

A log that is set up from a level on shows those records of the program that have this level or a higher one, in their
order and each on a line of its own (`shown_setup`): its parts belong to it whatever other parts have been used.
-/

namespace ZincModel.Log

/-! ## Parts of the program -/

/-- A name behind the name of the program, with a dot between them. -/
theorem belongs_behind {name : String} {c : Char} {rest : List Char}
    (spelled : name.toList = rootName.toList ++ '.' :: c :: rest) (single : c ≠ '.') : Belongs name :=
  belongs_of_isBelow (.inr ⟨c, rest, spelled, single⟩)

theorem belongs_config : Belongs "mznbridge.config" := belongs_behind rfl (by decide)

theorem belongs_runner : Belongs "mznbridge.runner" := belongs_behind rfl (by decide)

theorem belongs_results : Belongs "mznbridge.results" := belongs_behind rfl (by decide)

theorem belongs_evaluation : Belongs "mznbridge.evaluation" := belongs_behind rfl (by decide)

theorem belongs_generator : Belongs "mznbridge.backends.minizinc_generator" := belongs_behind rfl (by decide)

/-- The records come from parts of the program. -/
def AreOwn (records : List Record) : Prop := ∀ r ∈ records, Belongs r.logger

namespace AreOwn

variable {records more : List Record}

theorem nil : AreOwn [] := List.forall_mem_nil _

theorem cons {r : Record} (first : Belongs r.logger) (others : AreOwn records) : AreOwn (r :: records) :=
  List.forall_mem_cons.2 ⟨first, others⟩

theorem singleton {r : Record} (h : Belongs r.logger) : AreOwn [r] := .cons h .nil

theorem append (h : AreOwn records) (h' : AreOwn more) : AreOwn (records ++ more) :=
  List.forall_mem_append.2 ⟨h, h'⟩

end AreOwn

/-! ## Records of the program -/

/-- The record as it is sent. -/
def Record.sent (r : Record) : Sent := ⟨r.logger, r.level.number, r.message⟩

namespace State

theorem logAll_eq_sendAll (records : List Record) (s : State) :
    s.logAll records = s.sendAll (records.map Record.sent) := by
  induction records generalizing s with
  | nil => rfl
  | cons r records ih =>
    rw [logAll, List.map_cons, sendAll]
    dsimp only
    rw [ih]
    rfl

/-- A log that is set up from a level on, without a file, shows the records of this level and of higher ones. -/
theorem shown_setup {level : Level} (set : level.number ≠ 0) {records : List Record}
    (own : AreOwn records) (s : State) :
    ((s.setup (.int level.number) .null).2.logAll records).1 =
      (records.filter fun r => isTaken level.number r.level.number).flatMap Record.line := by
  have belong : ∀ e ∈ records.map Record.sent, Belongs e.logger := List.forall_mem_map.2 own
  obtain ⟨shown, -⟩ := (serves_configured level.number none s).sendAll (records.map Record.sent)
  have configured : (s.setup (.int level.number) .null).2 = s.configured level.number none := rfl
  rw [configured, logAll_eq_sendAll, shown, Service.isUp, shownOfAll_of_belongs belong set, List.filter_map,
    List.flatMap_map]
  rfl

end State

end ZincModel.Log
