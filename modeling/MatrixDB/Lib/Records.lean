import Mathlib.Data.List.Infix
import MatrixDB.Lib.Bytes

/-!
# Records in a byte string

A reader takes a record off the front of its input.  What it makes of a record
is described once, for the whole record followed by anything, and for every cut
through it; records are put together from fields, and sections from records.
-/

namespace MatrixDB.Lib

/-- A reader aborts, or finds its input bad, or leaves the rest of it. -/
abbrev Reader (S : Type) := Bytes → S → Option (Option Bytes × S)

/-- A record is read to its last byte if it is good and found bad otherwise,
and so is each of its proper beginnings. -/
structure ReadsRecord {S : Type} (read : Reader S) (record : Bytes)
    (good : Prop) (state : S) (Read : S → Prop) : Prop where
  accepts : good → ∃ next, Read next ∧
    ∀ rest, read (record ++ rest) state = some (some rest, next)
  rejects : ¬ good → ∀ rest, ∃ left,
    read (record ++ rest) state = some (none, left)
  cut : ∀ part, part <+: record → part ≠ record → ∃ left,
    read part state = some (none, left)

/-! ## Beginnings -/

/-- A beginning of two parts ends within the first or goes beyond it. -/
theorem prefix_append_cases {part front back : Bytes}
    (cut : part <+: front ++ back) (proper : part ≠ front ++ back) :
    (part <+: front ∧ part ≠ front) ∨
      ∃ more, part = front ++ more ∧ more <+: back ∧ more ≠ back := by
  rcases List.prefix_or_prefix_of_prefix cut (List.prefix_append front back)
    with within | ⟨more, rfl⟩
  · by_cases whole : part = front
    · subst whole
      refine .inr ⟨[], (List.append_nil part).symm, List.nil_prefix, ?_⟩
      intro nothing
      apply proper
      rw [← nothing, List.append_nil]
    · exact .inl ⟨within, whole⟩
  · refine .inr ⟨more, rfl, (List.prefix_append_right_inj front).mp cut, ?_⟩
    intro whole
    exact proper (congrArg (front ++ ·) whole)

theorem length_lt_of_cut {part whole : Bytes} (cut : part <+: whole)
    (proper : part ≠ whole) : part.length < whole.length := by
  apply lt_of_le_of_ne cut.length_le
  intro same
  exact proper (cut.eq_of_length same)

namespace ReadsRecord

variable {S : Type} {read : Reader S} {record : Bytes} {good : Prop}
  {state : S} {Read : S → Prop}

theorem weaken {other : Prop} {Other : S → Prop}
    (reads : ReadsRecord read record good state Read) (same : good ↔ other)
    (implies : good → ∀ next, Read next → Other next) :
    ReadsRecord read record other state Other := by
  refine ⟨?_, ?_, reads.cut⟩
  · intro holds
    obtain ⟨next, was, whole⟩ := reads.accepts (same.mpr holds)
    exact ⟨next, implies (same.mpr holds) next was, whole⟩
  · intro fails
    exact reads.rejects (mt same.mp fails)

/-- A field in front of what is read behind it. -/
theorem behind {field : Bytes}
    (short : ∀ part, part.length < field.length →
      ∃ left, read part state = some (none, left))
    (reads : ReadsRecord (fun rest => read (field ++ rest)) record good state
      Read) :
    ReadsRecord read (field ++ record) good state Read := by
  refine ⟨?_, ?_, ?_⟩
  · intro holds
    obtain ⟨next, was, whole⟩ := reads.accepts holds
    refine ⟨next, was, ?_⟩
    intro rest
    rw [List.append_assoc]
    exact whole rest
  · intro fails rest
    rw [List.append_assoc]
    exact reads.rejects fails rest
  · intro part cut proper
    rcases prefix_append_cases cut proper with
      ⟨within, some⟩ | ⟨more, rfl, cut, proper⟩
    · exact short part (length_lt_of_cut within some)
    · exact reads.cut more cut proper

/-- A section of records, each read in a state that the ones before it have
led to. -/
theorem loop {I : Type} {write : I → Bytes} {Good : I → Prop} {items : List I}
    (Read : List I → S → Prop)
    (reads : ∀ before item after, items = before ++ item :: after →
      ∀ state, Read before state →
        ReadsRecord read (write item) (Good item) state
          (Read (before ++ [item]))) (start : Read [] state) :
    ReadsRecord (readLoop read items.length) (items.flatMap write)
      (∀ item ∈ items, Good item) state (Read items) := by
  have tail : ∀ after before state, items = before ++ after →
      Read before state →
      ReadsRecord (readLoop read after.length) (after.flatMap write)
        (∀ item ∈ after, Good item) state (Read items) := by
    intro after
    induction after with
    | nil =>
        intro before state whole was
        rw [List.append_nil] at whole
        subst whole
        refine ⟨fun _ => ⟨state, was, fun rest => rfl⟩, ?_, ?_⟩
        · intro fails
          exact absurd (fun _ member => absurd member List.not_mem_nil) fails
        · intro part cut proper
          exact absurd (List.prefix_nil.mp cut) proper
    | cons item after induction =>
        intro before state whole was
        have here := reads before item after whole state was
        have later : ∀ next, Read (before ++ [item]) next →
            ReadsRecord (readLoop read after.length) (after.flatMap write)
              (∀ item ∈ after, Good item) next (Read items) := by
          intro next was
          apply induction (before ++ [item]) next _ was
          rw [whole, List.append_assoc]
          rfl
        rw [List.flatMap_cons]
        refine ⟨?_, ?_, ?_⟩
        · intro all
          obtain ⟨next, was, first⟩ := here.accepts (all item List.mem_cons_self)
          obtain ⟨last, done, others⟩ := (later next was).accepts
            fun other member => all other (List.mem_cons_of_mem item member)
          refine ⟨last, done, ?_⟩
          intro rest
          rw [List.append_assoc, List.length_cons, readLoop, first]
          exact others rest
        · intro fails rest
          rw [List.append_assoc, List.length_cons, readLoop]
          by_cases fine : Good item
          · obtain ⟨next, was, first⟩ := here.accepts fine
            rw [first]
            apply (later next was).rejects
            intro others
            exact fails (List.forall_mem_cons.mpr ⟨fine, others⟩)
          · obtain ⟨left, bad⟩ := here.rejects fine (after.flatMap write ++ rest)
            rw [bad]
            exact ⟨left, rfl⟩
        · intro part cut proper
          rw [List.length_cons, readLoop]
          rcases prefix_append_cases cut proper with
            ⟨within, some⟩ | ⟨more, rfl, cut, proper⟩
          · obtain ⟨left, bad⟩ := here.cut part within some
            rw [bad]
            exact ⟨left, rfl⟩
          · by_cases fine : Good item
            · obtain ⟨next, was, first⟩ := here.accepts fine
              rw [first]
              exact (later next was).cut more cut proper
            · obtain ⟨left, bad⟩ := here.rejects fine more
              rw [bad]
              exact ⟨left, rfl⟩
  exact tail items [] state rfl start

end ReadsRecord

/-- A state that counts the items it has read. -/
theorem readLoop_counted {S : Type} {step : Reader S} (Read : Nat → S → Prop)
    (reads : ∀ count input state, Read count state → ∀ rest next,
      step input state = some (some rest, next) → Read (count + 1) next)
    {count : Nat} {input rest : Bytes} {state last : S} (start : Read 0 state)
    (ran : readLoop step count input state = some (some rest, last)) :
    Read count last := by
  have onward : ∀ more already input state, Read already state →
      readLoop step more input state = some (some rest, last) →
      Read (already + more) last := by
    intro more
    induction more with
    | zero =>
        intro already input state was ran
        cases ran
        exact was
    | succ more induction =>
        intro already input state was ran
        rw [readLoop] at ran
        split at ran
        · cases ran
        · cases ran
        · rename_i went
          rw [← Nat.add_assoc, Nat.add_right_comm]
          exact induction _ _ _ (reads _ _ _ was _ _ went) ran
  have whole := onward count 0 input state start ran
  rwa [Nat.zero_add] at whole

end MatrixDB.Lib
