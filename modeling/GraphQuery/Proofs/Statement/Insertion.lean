import GraphQuery.Proofs.Construction.Insertion
import GraphQuery.Proofs.Construction.SameCalls
import GraphQuery.Proofs.Descriptor.Restriction
import GraphQuery.Proofs.Run
import GraphQuery.Statement.Insertion

/-!
# The data of insertions are sound

One call on an insertion does to its data one of four things. Each of them keeps what has been checked,
goes on from what is there, and counts a row exactly if the call adds one.
-/

namespace GraphQuery

open Outcome

/-- A list is passed through a step if every element is. -/
theorem Outcome.mapM_eq_ok {α β ε : Type} {f : α → Except ε β} {as : List α} {bs : List β} :
    as.mapM f = .ok bs ↔ List.Forall₂ (fun a b => f a = .ok b) as bs := by
  induction as generalizing bs with
  | nil =>
      rw [List.mapM_nil, List.forall₂_nil_left_iff]
      exact ⟨fun made => (Except.ok.inj made).symm, fun made => congrArg Except.ok made.symm⟩
  | cons a rest ih =>
      rw [List.mapM_cons, List.forall₂_cons_left_iff, bind_eq_ok]
      refine ⟨?_, ?_⟩
      · rintro ⟨b, here, behind⟩
        obtain ⟨others, there, made⟩ := bind_eq_ok.mp behind
        cases made
        exact ⟨b, others, here, ih.mp there, rfl⟩
      · rintro ⟨b, others, here, there, rfl⟩
        exact ⟨b, here, bind_eq_ok.mpr ⟨others, ih.mpr there, rfl⟩⟩

namespace InsertData

variable {input : Descriptor} {data data' data'' : InsertData} {c : Call}

theorem checkRow_iff {names : List String} {row : List Json} :
    Insert.checkRow input names row = .ok () ↔
      ∀ name v, (name, v) ∈ names.zip row → Document.checkAssignment input name v = .ok () := by
  induction names generalizing row with
  | nil => simp [Insert.checkRow]
  | cons first names ih =>
      cases row with
      | nil => simp [Insert.checkRow]
      | cons w row =>
          rw [Insert.checkRow, List.zip_cons_cons, Fields.forall_mem_cons, ← ih]
          cases Document.checkAssignment input first w with
          | error e => simp
          | ok => simp

/-! ## One call -/

theorem Written.sound (written : Written input data c data') (distinct : input.Distinct)
    (sound : data.Sound input) : data'.Sound input := by
  cases written with
  | fields names _ => exact fun row member => absurd member List.not_mem_nil
  | @values names lines row fits =>
      intro line member
      rcases List.mem_append.mp member with before | new
      · exact sound line before
      · cases List.mem_singleton.mp new
        exact fits
  | @content _ before parsed document there parses =>
      intro d member
      rcases List.mem_append.mp member with old | new
      · rcases there with ⟨_, rfl⟩ | rfl
        · cases old
        · exact sound d old
      · have valid : ∀ p ∈ parsed, input.validate p = true :=
          forall_mem_of_forall₂ parses.flip fun _ d parse =>
            (Descriptor.restricted_of_parse input parse).check distinct
        exact valid d new
  | other _ => exact sound

theorem Continues.refl (data : InsertData) : Continues data data := by
  cases data with
  | empty => exact .empty _
  | rows names lines => simpa using Continues.rows names lines []
  | documents before => simpa using Continues.documents before []

theorem Continues.trans (first : Continues data data') (second : Continues data' data'') :
    Continues data data'' := by
  cases first with
  | empty => exact .empty _
  | fields before after lines =>
      cases second with
      | fields => exact .fields _ _ _
      | rows => exact .fields _ _ _
  | rows names lines more =>
      cases joined : lines ++ more with
      | nil =>
          -- There is no row yet, so the fields may still change.
          obtain ⟨rfl, rfl⟩ := List.append_eq_nil_iff.mp joined
          rw [joined] at second
          cases second with
          | fields => exact .fields _ _ _
          | rows => exact .rows _ _ _
      | cons row rest =>
          rw [joined] at second
          cases second with
          | rows _ _ more' =>
              rw [← joined, List.append_assoc]
              exact .rows _ _ _
  | documents before more =>
      cases second with
      | documents _ more' =>
          rw [List.append_assoc]
          exact .documents _ _

theorem Written.continues (written : Written input data c data') : Continues data data' := by
  cases written with
  | fields names noRows =>
      obtain rfl | ⟨before, rfl⟩ := noRows
      · exact .empty _
      · exact .fields _ _ _
  | values fits => exact .rows _ _ _
  | content document there _ =>
      obtain ⟨rfl, _⟩ | rfl := there
      · exact .empty _
      · exact .documents _ _
  | other _ => exact .refl data

theorem Written.lines (written : Written input data c data') :
    data'.lines = data.lines ++ [c].filterMap Call.row? := by
  cases written with
  | fields names noRows =>
      obtain rfl | ⟨before, rfl⟩ := noRows
      · rfl
      · rfl
  | values fits => rfl
  | content document there _ =>
      obtain ⟨rfl, _⟩ | rfl := there
      · rfl
      · rfl
  | other elsewhere =>
      have noRow : c.row? = none := by
        cases c with
        | values => exact absurd rfl elsewhere
        | _ => rfl
      rw [List.filterMap_cons_none noRow, List.filterMap_nil, List.append_nil]

end InsertData

theorem Database.require_of_requireEdge {db : Database} {table : String} {e : EdgeDecl}
    (found : db.requireEdge table = .ok e) : db.require table = .ok (.edge e) := by
  unfold requireEdge at found
  split at found
  · cases found
  · next there =>
      cases found
      exact there
  · cases found

namespace Insert

variable {db : Database} {scope : ScopeId} {table : String} {i i' : Insert} {c : Call}

theorem written_of_call (called : i.call c = some (.ok i')) :
    i'.input = i.input ∧ InsertData.Written i.input i.data c i'.data := by
  cases c <;> simp only [Insert.call, Option.some.injEq, reduceCtorEq] at called
  case fields names =>
    obtain ⟨noRows, rfl⟩ := eq_of_fields called
    exact ⟨rfl, .fields names noRows⟩
  case values row =>
    obtain ⟨names, lines, data, arity, checks, rfl⟩ := eq_of_values called
    rw [data]
    exact ⟨rfl, .values ⟨arity, InsertData.checkRow_iff.mp checks⟩⟩
  case content document =>
    obtain ⟨parsed, parses, ⟨data, rfl⟩ | ⟨before, data, rfl⟩⟩ := eq_of_content called
    · exact ⟨rfl, .content document (.inl ⟨data, rfl⟩) (mapM_eq_ok.mp parses)⟩
    · exact ⟨rfl, .content document (.inr data) (mapM_eq_ok.mp parses)⟩
  case onDuplicate field value =>
    obtain rfl := eq_of_onDuplicateSet called
    exact ⟨rfl, .other nofun⟩
  all_goals
    cases called
    exact ⟨rfl, .other nofun⟩

/-- A call on the data succeeds whenever it may. -/
theorem call_of_written {data : InsertData} (body : c.slot = .body)
    (written : InsertData.Written i.input i.data c data) :
    i.call c = some (.ok { i with data := data }) := by
  generalize here : i.data = before at written
  cases written with
  | fields names noRows =>
      obtain rfl | ⟨before, rfl⟩ := noRows
      · show some (i.fields names) = _
        rw [fields, here]
      · show some (i.fields names) = _
        rw [fields, here]
  | @values names lines row fits =>
      show some (i.values row) = _
      rw [values, here]
      dsimp only
      rw [if_pos fits.arity, InsertData.checkRow_iff.mpr fits.checked]
  | @content _ before parsed document there parses =>
      show some (i.content document) = _
      obtain ⟨rfl, rfl⟩ | rfl := there
      · rw [content, here]
        dsimp only
        rw [mapM_eq_ok.mpr parses]
        rfl
      · rw [content, here]
        dsimp only
        rw [mapM_eq_ok.mpr parses]
  | other elsewhere => exact absurd body elsewhere

/-! ## Runs of calls -/

/-- What is known of an insertion after the calls that have succeeded. -/
structure Pending (d : Declaration) (done : List Call) (i : Insert) : Prop where
  input : i.input = d.inputType
  sound : i.data.Sound d.inputType
  lines : i.data.lines = done.filterMap Call.row?

theorem Pending.next {d : Declaration} {done : List Call} (distinct : d.inputType.Distinct)
    (pending : Pending d done i) (called : step i c = .ok i') : Pending d (done ++ [c]) i' := by
  obtain ⟨same, written⟩ := written_of_call (Run.offered_eq_ok.mp called)
  rw [pending.input] at same written
  refine ⟨same, written.sound distinct pending.sound, ?_⟩
  rw [written.lines, pending.lines, List.filterMap_append]

theorem continues_final (i : Insert) (calls : List Call) :
    i.data.Continues (Run.final step i calls).data :=
  Run.final_invariant (P := fun i' => i.data.Continues i'.data) (.refl i.data)
    (fun _ _ _ before called =>
      before.trans (written_of_call (Run.offered_eq_ok.mp called)).2.continues) calls

theorem declared_of_opened
    (opened : Insert.of db scope table = .ok i ∨ Insert.ofEdge db scope table = .ok i) :
    ∃ d, db.require table = .ok d ∧ i.input = d.inputType ∧ i.data = .empty := by
  rcases opened with made | made
  · obtain ⟨d, found, rfl⟩ := map_eq_ok.mp made
    exact ⟨d, found, rfl, rfl⟩
  · obtain ⟨e, found, rfl⟩ := map_eq_ok.mp made
    exact ⟨.edge e, Database.require_of_requireEdge found, rfl, rfl⟩

theorem values_of_ne {names : List String} {lines : List (List Json)} {row : List Json}
    (data : i.data = .rows names lines) (arity : row.length ≠ names.length) :
    i.values row = .error (.usage (.insertArity names.length row.length lines.length)) := by
  rw [values, data]
  exact if_neg arity

/-- After any calls the data of an insertion have been checked against the table's documents. A call on
them succeeds exactly if it may add to what is there, and they go on from there: rows stay rows for
their fields, and documents stay documents. The rows are those of the calls that have succeeded, and as
many are reported by a row of the wrong length. -/
theorem data_sound (opened : Insert.of db scope table = .ok i ∨ Insert.ofEdge db scope table = .ok i)
    (distinct : i.input.Distinct) (calls : List Call) :
    let reached := Run.final step i calls
    let added := (Run.accepted step i calls).filterMap Call.row?
    (∃ d, db.require table = .ok d ∧ reached.input = d.inputType) ∧
    reached.data.Sound reached.input ∧
    (∀ c data, c.slot = .body → ((∃ i', reached.call c = some (.ok i') ∧ i'.data = data) ↔
      InsertData.Written reached.input reached.data c data)) ∧
    (∀ more, reached.data.Continues (Run.final step reached more).data) ∧
    reached.data.lines = added ∧
    (∀ names lines row, reached.data = .rows names lines → row.length ≠ names.length →
      reached.values row =
        .error (.usage (.insertArity names.length row.length added.length))) := by
  intro reached added
  obtain ⟨d, found, shape, empty⟩ := declared_of_opened opened
  have start : Pending d [] i := by
    refine ⟨shape, ?_, ?_⟩
    · rw [empty]
      trivial
    · rw [empty]
      rfl
  have pending : Pending d (Run.accepted step i calls) reached :=
    Run.final_induction start (fun _ _ _ _ before called => before.next (shape ▸ distinct) called)
      calls
  refine ⟨⟨d, found, pending.input⟩, ?_, ?_, continues_final reached, pending.lines, ?_⟩
  · rw [pending.input]
    exact pending.sound
  · intro c data body
    refine ⟨?_, ?_⟩
    · rintro ⟨i', called, rfl⟩
      exact (written_of_call called).2
    · intro written
      exact ⟨_, call_of_written body written, rfl⟩
  · intro names lines row data arity
    have rows : lines = added := by
      have there := pending.lines
      rwa [data] at there
    rw [← rows]
    exact values_of_ne data arity

end Insert

namespace Ages

/-- Two persons are inserted by their ages. Of the other calls, the first comes before the fields, the
next two are a row with a value of another shape and one that is too long, and the last two would
change the fields under the rows and the rows into documents. -/
def calls : List Call :=
  [.values [.int 1], .fields ["age"], .values [.int 3], .values [.string "Ada"],
    .values [.int 4, .int 5], .values [.int 4], .fields ["id"], .content (.object [("age", .int 5)])]

theorem data_sound_ages :
    ∃ i : Insert, Insert.of People.schema ⟨0⟩ "person" = .ok i ∧ i.input.Distinct ∧
      (Run.final Insert.step i calls).data = .rows ["age"] [[.int 3], [.int 4]] ∧
      (Run.final Insert.step i calls).data.Sound i.input ∧
      (Run.final Insert.step i calls).values [] = .error (.usage (.insertArity 1 0 2)) := by
  have opened : Insert.of People.schema ⟨0⟩ "person" = .ok _ := rfl
  obtain ⟨_, sound, _, _, _, wrongArity⟩ := Insert.data_sound (.inl opened) (by decide) calls
  refine ⟨_, opened, by decide, rfl, sound, ?_⟩
  exact wrongArity ["age"] [[.int 3], [.int 4]] [] rfl (by decide)

end Ages

end GraphQuery
