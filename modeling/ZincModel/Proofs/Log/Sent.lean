import Mathlib.Data.List.TakeWhile
import ZincModel.Log.Setup
import ZincModel.Proofs.Log.Below

/-!
# Records sent to parts

Whether a record is written is told by the records that were sent before it, from the last set-up on (`isWritten`): its
part must belong to the program, its level must be high enough, and records of this level must be taken from the part.
The last is decided when the first of them comes, by the level of the program if the part belongs to it then, and else
by the level that counts for all others. A record that is taken and finds no handlers, because its part does not belong
to the program or because the set-up failed, is left to the last resort (`shownOf`). The log keeps no more than that in
mind (`Serves`), so after a set-up it writes these records, in their order, and each of them once to each of its targets
(`Serves.sendAll`).
-/

namespace ZincModel.Log

/-- What is sent to a part: a record of any level. -/
structure Sent where
  logger : String
  level : Int
  message : List Char
  deriving DecidableEq

/-- The line that shows it. -/
def Sent.line (e : Sent) : List Char := Log.line e.level e.logger e.message

/-- Both are of one level and were sent to one part. -/
def Sent.isLike (e d : Sent) : Bool := d.logger == e.logger && d.level == e.level

theorem Sent.isLike_iff {e d : Sent} : e.isLike d = true ↔ (d.logger, d.level) = (e.logger, e.level) := by
  simp [isLike]

/-- Records of the level are taken, if those from `least` on are. -/
def isTaken (least level : Int) : Bool := 0 < level && least ≤ level

namespace State

/-- Sends a record; what goes to the standard error is returned. -/
def send (e : Sent) (s : State) : List Char × State := s.log e.logger e.level e.message

/-- Sends records one after the other. -/
def sendAll : List Sent → State → List Char × State
  | [], s => ([], s)
  | e :: rest, s =>
    let (shown, s) := s.send e
    let (more, s) := s.sendAll rest
    (shown ++ more, s)

/-- What is in a file that has been opened. -/
def content? (path : Path) (s : State) : Option (List Char) := s.files.lookup path

end State

/-! ## What is written -/

/-- The parts that have been used once the records have been sent. -/
def usedParts (parts : List String) (before : List Sent) : List String := (before.map Sent.logger).reverse ++ parts

/-- The part that a record is sent to belongs to the program when it is used for it. -/
def isWithin (parts : List String) (before : List Sent) (e : Sent) : Bool :=
  isPart (e.logger :: usedParts parts before) e.logger

/-- It did so when the first record of this level was sent to it. -/
def wasWithin (parts : List String) (before : List Sent) (e : Sent) : Bool :=
  isWithin parts (before.takeWhile fun d => !e.isLike d) e

/-- The level from which on records are taken from parts of the program after a set-up from `least` on. -/
def ownLevel (least : Int) : Int := if least = 0 then defaultLevel else least

/-- The level from which on records like this one are taken from the part. -/
def takenFrom (least : Int) (parts : List String) (before : List Sent) (e : Sent) : Int :=
  if wasWithin parts before e then ownLevel least else defaultLevel

/-- The record is written, if those from `least` on are. -/
def isWritten (least : Int) (parts : List String) (before : List Sent) (e : Sent) : Bool :=
  isTaken (takenFrom least parts before e) e.level && isWithin parts before e && least ≤ e.level

/-- Those of the records that are written, in their order. -/
def written (least : Int) (parts : List String) : List Sent → List Sent → List Sent
  | _, [] => []
  | before, e :: rest =>
    let others := written least parts (before ++ [e]) rest
    if isWritten least parts before e then e :: others else others

/-- What a record brings to the standard error, if there are handlers after the set-up or not. -/
def shownOf (site : Site) (served : Bool) (least : Int) (parts : List String) (before : List Sent) (e : Sent) :
    List Char :=
  if isTaken (takenFrom least parts before e) e.level then
    if served && isWithin parts before e then
      if least ≤ e.level then e.line else []
    else if site.showsLast e.level then bareLine e.message
    else []
  else []

/-- What records bring to the standard error, one after the other. -/
def shownOfAll (site : Site) (served : Bool) (least : Int) (parts : List String) : List Sent → List Sent → List Char
  | _, [] => []
  | before, e :: rest =>
    shownOf site served least parts before e ++ shownOfAll site served least parts (before ++ [e]) rest

theorem isWithin_of_belongs {e : Sent} (belongs : Belongs e.logger) (parts : List String) (before : List Sent) :
    isWithin parts before e = true :=
  belongs _

theorem ownLevel_of_ne {least : Int} (set : least ≠ 0) : ownLevel least = least := if_neg set

theorem takenFrom_of_was {parts : List String} {before : List Sent} {e : Sent}
    (first : wasWithin parts before e = true) (least : Int) : takenFrom least parts before e = ownLevel least :=
  if_pos first

section Within

variable {least : Int} (set : least ≠ 0) {parts : List String} {before : List Sent} {e : Sent}
  (within : isWithin parts before e = true) (first : wasWithin parts before e = true)

include set within first

theorem isWritten_of_within : isWritten least parts before e = isTaken least e.level := by
  rw [isWritten, takenFrom_of_was first, ownLevel_of_ne set, within, Bool.and_true, isTaken, Bool.and_assoc,
    Bool.and_self]

theorem shownOf_of_within (site : Site) :
    shownOf site true least parts before e = if isTaken least e.level then e.line else [] := by
  rw [shownOf, takenFrom_of_was first, ownLevel_of_ne set, within, Bool.and_true, if_pos rfl, isTaken]
  by_cases high : least ≤ e.level <;> simp [high]

end Within

/-- A record stands in its place among those that are written, or it is left out. -/
theorem written_at (least : Int) (parts : List String) (earlier before : List Sent) (e : Sent) (more : List Sent) :
    written least parts earlier (before ++ e :: more) = written least parts earlier before ++
      (if isWritten least parts (earlier ++ before) e then [e] else []) ++
        written least parts (earlier ++ before ++ [e]) more := by
  induction before generalizing earlier with
  | nil =>
    rw [List.nil_append, List.append_nil, written, written]
    cases isWritten least parts earlier e <;> simp
  | cons d before ih =>
    rw [List.cons_append, written, written, ih (earlier ++ [d])]
    split <;> simp

theorem shownOfAll_append (site : Site) (served : Bool) (least : Int) (parts : List String)
    (earlier before more : List Sent) :
    shownOfAll site served least parts earlier (before ++ more) =
      shownOfAll site served least parts earlier before ++
        shownOfAll site served least parts (earlier ++ before) more := by
  induction before generalizing earlier with
  | nil => rw [List.nil_append, List.append_nil, shownOfAll, List.nil_append]
  | cons d before ih => rw [List.cons_append, shownOfAll, shownOfAll, ih]; simp

/-- Of records of parts that belong to the program in any case those are written that are taken. -/
theorem written_of_belongs {sent : List Sent} (own : ∀ e ∈ sent, Belongs e.logger) {least : Int} (set : least ≠ 0)
    (parts : List String) (before : List Sent) :
    written least parts before sent = sent.filter fun e => isTaken least e.level := by
  induction sent generalizing before with
  | nil => rfl
  | cons e sent ih =>
    obtain ⟨belongs, others⟩ := List.forall_mem_cons.1 own
    have within := isWithin_of_belongs belongs parts
    rw [written, ih others, List.filter_cons, isWritten_of_within set (within _) (within _)]

/-- Of such records those that are taken are shown, each on its line. -/
theorem shownOfAll_of_belongs {sent : List Sent} (own : ∀ e ∈ sent, Belongs e.logger) {least : Int} (set : least ≠ 0)
    (site : Site) (parts : List String) (before : List Sent) :
    shownOfAll site true least parts before sent =
      (sent.filter fun e => isTaken least e.level).flatMap Sent.line := by
  induction sent generalizing before with
  | nil => rfl
  | cons e sent ih =>
    obtain ⟨belongs, others⟩ := List.forall_mem_cons.1 own
    have within := isWithin_of_belongs belongs parts
    rw [shownOfAll, ih others, shownOf_of_within set (within _) (within _), List.filter_cons]
    split <;> simp

/-- Without handlers such records are shown by the last resort. -/
theorem shownOfAll_unserved {sent : List Sent} (own : ∀ e ∈ sent, Belongs e.logger) (site : Site) (least : Int)
    (parts : List String) (before : List Sent) :
    shownOfAll site false least parts before sent =
      (sent.filter fun e => isTaken (ownLevel least) e.level && site.showsLast e.level).flatMap
        fun e => bareLine e.message := by
  induction sent generalizing before with
  | nil => rfl
  | cons e sent ih =>
    obtain ⟨belongs, others⟩ := List.forall_mem_cons.1 own
    have first : wasWithin parts before e = true := isWithin_of_belongs belongs parts _
    rw [shownOfAll, ih others, shownOf, takenFrom_of_was first, List.filter_cons]
    cases isTaken (ownLevel least) e.level <;> cases site.showsLast e.level <;> simp

/-- The record that comes first decides for those like it. -/
theorem takeWhile_concat {α : Type} {p : α → Bool} {l : List α} {a : α} (h : ((l ++ [a]).any fun x => !p x) = true) :
    (l ++ [a]).takeWhile p = l.takeWhile p := by
  induction l with
  | nil => simpa using h
  | cons x l ih =>
    rw [List.cons_append, List.takeWhile_cons, List.takeWhile_cons]
    cases first : p x with
    | false => rfl
    | true => simp [ih (by simpa [first] using h)]

/-- What is decided for records of one level and one part is the same. -/
theorem takenFrom_like {least : Int} {parts : List String} {before : List Sent} {e d : Sent}
    (like : d.isLike e = true) : takenFrom least parts before e = takenFrom least parts before d := by
  cases e
  cases d
  obtain ⟨rfl, rfl⟩ := Prod.mk.inj (Sent.isLike_iff.1 like)
  rfl

/-- What was decided stays decided. -/
theorem wasWithin_concat {parts : List String} {before : List Sent} {e d : Sent}
    (known : (before ++ [d]).any e.isLike = true) : wasWithin parts (before ++ [d]) e = wasWithin parts before e := by
  rw [wasWithin, takeWhile_concat (by simpa using known), wasWithin]

/-- Nothing was decided before the first record. -/
theorem wasWithin_first {parts : List String} {before : List Sent} {e : Sent} (fresh : before.any e.isLike = false) :
    wasWithin parts before e = isWithin parts before e := by
  rw [wasWithin, List.takeWhile_eq_self_iff.2]
  simpa using fresh

/-! ## The log from a set-up on -/

/-- What a set-up leaves: no handlers if it failed, and else handlers for the standard error and for a file, if it has
one. -/
inductive Service where
  | failed
  | installed (file : Option Path)

namespace Service

def handlers (least : Int) : Service → List Handler
  | failed => []
  | installed file => ⟨.standardError, least⟩ :: file.toList.map fun path => ⟨.file path, least⟩

/-- There are handlers. -/
def isUp : Service → Bool
  | failed => false
  | installed _ => true

def file? : Service → Option Path
  | failed => none
  | installed file => file

end Service

/-- The log takes records from the level `least` on, and has decided what the records before tell. -/
structure State.Serves (service : Service) (least : Int) (parts : List String) (before : List Sent) (s : State) :
    Prop where
  level : s.level = least
  handlers : s.handlers = service.handlers least
  used : s.parts = usedParts parts before
  decisions : ∀ e : Sent, s.decisions.lookup (e.logger, e.level) =
    if before.any e.isLike then some (isTaken (takenFrom least parts before e) e.level) else none

namespace State

variable {service : Service} {least : Int} {parts : List String} {before : List Sent} {s : State}

/-- What is decided for a record. -/
theorem Serves.decide (h : s.Serves service least parts before) (e : Sent) :
    decide e.logger e.level { s with parts := e.logger :: s.parts } =
      isTaken (takenFrom least parts before e) e.level := by
  have owned : owns e.logger { s with parts := e.logger :: s.parts } = isWithin parts before e := by
    rw [owns, h.used, isWithin]
  have level : State.level { s with parts := e.logger :: s.parts } = least := h.level
  unfold State.decide
  dsimp only
  rw [h.decisions e]
  cases known : before.any e.isLike with
  | true => simp
  | false =>
    have effective :
        effectiveLevel e.logger { s with parts := e.logger :: s.parts } = takenFrom least parts before e := by
      rw [effectiveLevel, owned, level, takenFrom, wasWithin_first known, ownLevel]
      cases isWithin parts before e <;> simp
    simp only [Bool.false_eq_true, if_false, effective, isTaken]

/-- The log once a part has been used for a record. -/
theorem Serves.used_for (h : s.Serves service least parts before) (e : Sent) :
    (s.used e.logger e.level).Serves service least parts (before ++ [e]) where
  level := h.level
  handlers := h.handlers
  used := by simp [State.used, h.used, usedParts]
  decisions d := by
    have decided : (s.used e.logger e.level).decisions =
        ((e.logger, e.level), isTaken (takenFrom least parts before e) e.level) :: s.decisions := by
      rw [← h.decide e]
      rfl
    have kept (known : (before ++ [e]).any d.isLike = true) :
        takenFrom least parts (before ++ [e]) d = takenFrom least parts before d := by
      rw [takenFrom, takenFrom, wasWithin_concat known]
    rw [decided, List.lookup_cons, h.decisions d, List.any_append, List.any_cons, List.any_nil, Bool.or_false]
    cases like : d.isLike e with
    | true =>
      have key : ((d.logger, d.level) == (e.logger, e.level)) = true := beq_iff_eq.2 (Sent.isLike_iff.1 like).symm
      rw [key, Bool.or_true, if_pos rfl, kept (by simp [like]), takenFrom_like like, (Prod.mk.inj (beq_iff_eq.1 key)).2]
    | false =>
      have key : ((d.logger, d.level) == (e.logger, e.level)) = false := by
        rw [beq_eq_false_iff_ne]
        exact fun same => Bool.false_ne_true (like.symm.trans (Sent.isLike_iff.2 same.symm))
      rw [key, Bool.or_false]
      cases known : before.any d.isLike with
      | true => rw [kept (by simp [known])]
      | false => rfl

/-- What is decided for a record holds once its part has been used for it. -/
theorem Serves.decided (h : s.Serves service least parts before) (e : Sent) :
    State.decide e.logger e.level (s.used e.logger e.level) = isTaken (takenFrom least parts before e) e.level := by
  rw [← h.decide e]
  simp [State.decide, State.used]

/-- A record finds handlers if there are any and its part belongs to the program. -/
theorem Serves.serves (h : s.Serves service least parts before) (e : Sent) :
    (s.used e.logger e.level).serves e.logger = (service.isUp && isWithin parts before e) := by
  have owned : (s.used e.logger e.level).owns e.logger = isWithin parts before e := by
    rw [owns, State.used, h.used, isWithin]
  rw [State.serves, owned, (h.used_for e).handlers, Bool.and_comm]
  cases service <;> rfl

/-! ## Files -/

theorem lookup_cons_if (path : Path) (f : Path × List Char) (files : List (Path × List Char)) :
    (f :: files).lookup path = if path = f.1 then some f.2 else files.lookup path := by
  rw [List.lookup_cons]
  by_cases h : path = f.1
  · simp [h]
  · simp [beq_eq_false_iff_ne.2 h, h]

theorem site_append (path : Path) (text : List Char) (s : State) : (s.append path text).site = s.site := by
  unfold append
  split <;> rfl

/-- Text that is added to a file stands behind what is in it. Other files stay as they are. -/
theorem content?_append (path q : Path) (text : List Char) (s : State) :
    (s.append path text).content? q =
      if q = path ∧ path ≠ Path.nullDevice then (s.content? q).map (· ++ text) else s.content? q := by
  unfold content? append
  by_cases null : path = Path.nullDevice
  · simp [null]
  · rw [if_neg null]
    induction s.files with
    | nil => simp
    | cons f files ih =>
      dsimp only at ih ⊢
      rw [List.map_cons, lookup_cons_if, lookup_cons_if, ih]
      by_cases here : path = f.1
      · by_cases found : q = f.1 <;> simp [here ▸ null, here, found]
      · by_cases found : q = f.1
        · simp [found, Ne.symm here]
        · simp [found, Ne.symm here]

/-- A file that is opened is empty. Other files stay as they are. -/
theorem content?_clear (path q : Path) (s : State) :
    (s.clear path).content? q = if q = path then some [] else s.content? q := by
  unfold content? clear
  dsimp only
  rw [List.lookup_append, lookup_cons_if]
  induction s.files with
  | nil => rfl
  | cons f files ih =>
    rw [List.filter_cons, lookup_cons_if]
    by_cases here : f.1 = path
    · by_cases found : q = f.1 <;> simp_all
    · rw [if_pos (by simpa using here), lookup_cons_if]
      by_cases found : q = f.1 <;> simp_all

theorem site_writeAll (level : Int) (text : List Char) (handlers : List Handler) (s : State) :
    (writeAll level text handlers s).2.site = s.site := by
  induction handlers generalizing s with
  | nil => rfl
  | cons h handlers ih =>
    rw [writeAll]
    dsimp only
    rw [ih, write]
    split
    · split
      · rfl
      · exact site_append _ _ _
    · rfl

theorem Serves.append (h : s.Serves service least parts before) (path : Path) (text : List Char) :
    (s.append path text).Serves service least parts before := by
  unfold State.append
  split
  · exact h
  · exact ⟨h.level, h.handlers, h.used, h.decisions⟩

/-- A line that is high enough goes to the standard error, and to the file if there is one. -/
theorem writeAll_handlers (least level : Int) (file : Option Path) (text : List Char) (s : State) :
    writeAll level text ((Service.installed file).handlers least) s =
      if least ≤ level then (text, (file.map fun path => s.append path text).getD s) else ([], s) := by
  cases file <;> by_cases high : least ≤ level <;> simp [Service.handlers, writeAll, write, high]

/-! ## Runs -/

/-- What is sent: a line for the standard error, and for the file if the record is written. -/
theorem Serves.send_eq (h : s.Serves service least parts before) (e : Sent) :
    s.send e = (shownOf s.site service.isUp least parts before e,
      if service.isUp && isWritten least parts before e then
        (service.file?.map fun path => (s.used e.logger e.level).append path e.line).getD (s.used e.logger e.level)
      else s.used e.logger e.level) := by
  have found : (s.used e.logger e.level).site = s.site := rfl
  rw [State.send, State.log, h.decided e, h.serves e, (h.used_for e).handlers, found, shownOf, isWritten]
  cases isTaken (takenFrom least parts before e) e.level with
  | false => simp
  | true =>
    cases isWithin parts before e with
    | false => cases s.site.showsLast e.level <;> simp
    | true =>
      cases service with
      | failed => cases s.site.showsLast e.level <;> simp [Service.isUp]
      | installed file =>
        rw [writeAll_handlers]
        by_cases high : least ≤ e.level <;> simp [Service.isUp, Service.file?, Sent.line, high]

/-- What one record brings: it is written once to each target, or not at all. -/
theorem Serves.send (h : s.Serves service least parts before) (e : Sent) :
    (s.send e).2.Serves service least parts (before ++ [e]) ∧
    ∀ path, (s.send e).2.content? path =
      if service.file? = some path ∧ path ≠ Path.nullDevice ∧ isWritten least parts before e then
        (s.content? path).map (· ++ e.line)
      else s.content? path := by
  have used := h.used_for e
  have same (path : Path) : (s.used e.logger e.level).content? path = s.content? path := rfl
  rw [h.send_eq e]
  dsimp only
  cases written : isWritten least parts before e with
  | false =>
    rw [Bool.and_false, if_neg Bool.false_ne_true]
    exact ⟨used, fun path => by simp [same]⟩
  | true =>
    rw [Bool.and_true]
    cases service with
    | failed => exact ⟨used, fun path => by simp [Service.isUp, Service.file?, same]⟩
    | installed file =>
      rw [if_pos (show (Service.installed file).isUp = true from rfl)]
      cases file with
      | none => exact ⟨used, fun path => by simp [Service.file?, same]⟩
      | some target =>
        refine ⟨used.append target e.line, fun path => ?_⟩
        change ((s.used e.logger e.level).append target e.line).content? path = _
        rw [content?_append, same]
        by_cases here : path = target
        · simp [Service.file?, here]
        · simp [Service.file?, here, Ne.symm here]

theorem site_send (e : Sent) (s : State) : (s.send e).2.site = s.site := by
  unfold State.send log
  dsimp only
  split_ifs
  · exact site_writeAll _ _ _ _
  · rfl
  · rfl
  · rfl

/-- What a row of records brings. -/
theorem Serves.sendAll (h : s.Serves service least parts before) (sent : List Sent) :
    (s.sendAll sent).1 = shownOfAll s.site service.isUp least parts before sent ∧
    ∀ path, (s.sendAll sent).2.content? path =
      if service.file? = some path ∧ path ≠ Path.nullDevice then
        (s.content? path).map (· ++ (written least parts before sent).flatMap Sent.line)
      else s.content? path := by
  induction sent generalizing s before with
  | nil => exact ⟨rfl, fun path => by simp [State.sendAll, written]⟩
  | cons e rest ih =>
    obtain ⟨serves, filed⟩ := h.send e
    obtain ⟨more, others⟩ := ih serves
    have lines : (written least parts before (e :: rest)).flatMap Sent.line =
        (if isWritten least parts before e then e.line else []) ++
          (written least parts (before ++ [e]) rest).flatMap Sent.line := by
      rw [written]
      split <;> simp
    rw [State.sendAll, lines]
    dsimp only
    refine ⟨by rw [more, site_send, h.send_eq e, shownOfAll], fun path => ?_⟩
    rw [others path, filed path]
    by_cases here : service.file? = some path ∧ path ≠ Path.nullDevice
    · rw [if_pos here, if_pos here]
      cases isWritten least parts before e <;> simp [here, Function.comp_def]
    · rw [if_neg here, if_neg here, if_neg fun h => here ⟨h.1, h.2.1⟩]

end State

end ZincModel.Log
