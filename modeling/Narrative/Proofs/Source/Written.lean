import Mathlib.Tactic.Common
import Narrative.Source.Condition
import Narrative.Operation.Coding
import Narrative.Proofs.Except
import Narrative.Proofs.Source.Unambiguous
import Narrative.Proofs.Story.Rereading

/-!
# What is written in the source

An operation is written by a statement, and a condition by a document of statements.  All that they
are made of are operands that are read from tokens, so what holds of those holds of their operands.
-/

namespace Narrative

/-! ### Operands -/

namespace Operand

/-- An operand that some token is read as, in a storyline or in none. -/
def WrittenIn (storyline : Option String) (operand : Operand) : Prop :=
  ∃ token, Reads storyline token operand

/-- An operand that some token is read as. -/
def Written (operand : Operand) : Prop :=
  ∃ storyline token, Reads storyline token operand

end Operand

/-- Both operands of a statement that is read are read. -/
theorem Statement.writtenIn_of_read {storyline : Option String} {code : List Char} {s : Statement}
    (h : read storyline code = .ok s) :
    s.left.WrittenIn storyline ∧ s.right.WrittenIn storyline := by
  obtain ⟨-, before, after, -, hsides⟩ := read_eq_ok_iff.1 h
  exact ⟨⟨_, Operand.reads_of_read hsides.left⟩, ⟨_, Operand.reads_of_read hsides.right⟩⟩

/-! ### Operations -/

namespace Operation

/-- Both sides of an operation: its target, as an operand, and what it applies there. -/
def sides (o : Operation) : List Operand :=
  [.access o.target, o.operand]

/-- An operation that some statement writes, in a storyline or in none. -/
def WrittenIn (storyline : Option String) (o : Operation) : Prop :=
  ∃ code, read storyline code = .ok o

/-- An operation that some statement writes. -/
def Written (o : Operation) : Prop :=
  ∃ storyline code, read storyline code = .ok o

theorem WrittenIn.written {storyline : Option String} {o : Operation} (h : o.WrittenIn storyline) :
    o.Written :=
  ⟨storyline, h⟩

/-- The target is the access on the left of the statement. -/
theorem WrittenIn.sides {storyline : Option String} {o : Operation} (h : o.WrittenIn storyline) :
    ∀ operand ∈ o.sides, operand.WrittenIn storyline := by
  obtain ⟨code, h⟩ := h
  unfold read at h
  split at h
  · exact absurd h nofun
  rename_i s hstatement
  obtain ⟨hleft, hright⟩ := Statement.writtenIn_of_read hstatement
  split at h
  · rename_i target _ haccess
    obtain rfl := Except.ok.inj h
    exact List.forall_mem_cons.2 ⟨haccess ▸ hleft, List.forall_mem_singleton.2 hright⟩
  · exact absurd h nofun
  · exact absurd h nofun

theorem Written.operands {o : Operation} (h : o.Written) :
    (Operand.access o.target).Written ∧ o.operand.Written := by
  obtain ⟨storyline, hwritten⟩ := h
  have hsides := WrittenIn.sides hwritten
  exact ⟨⟨storyline, hsides _ List.mem_cons_self⟩,
    ⟨storyline, hsides _ (List.mem_cons_of_mem _ List.mem_cons_self)⟩⟩

theorem writtenIn_of_readAll {storyline : Option String} {codes : List String}
    {operations : List Operation} (h : readAll storyline codes = .ok operations) :
    ∀ o ∈ operations, o.WrittenIn storyline := by
  induction codes generalizing operations with
  | nil =>
    obtain rfl := Except.ok.inj h
    exact fun o ho => absurd ho List.not_mem_nil
  | cons code rest ih =>
    rw [readAll] at h
    split at h
    · exact absurd h nofun
    rename_i hfirst
    obtain ⟨others, hothers, rfl⟩ := Except.exists_of_map h
    exact List.forall_mem_cons.2 ⟨⟨_, hfirst⟩, ih hothers⟩

end Operation

/-! ### Conditions -/

namespace Condition

/-- A condition that some document writes, in a storyline or in none. -/
def WrittenIn (storyline : Option String) (c : Condition) : Prop :=
  ∃ document, read storyline document = .ok c

/-- A condition that some document writes. -/
def Written (c : Condition) : Prop :=
  ∃ storyline document, read storyline document = .ok c

theorem WrittenIn.written {storyline : Option String} {c : Condition} (h : c.WrittenIn storyline) :
    c.Written :=
  ⟨storyline, h⟩

theorem operands_of_readAtom {storyline : Option String} {code : String} {c : Condition}
    (h : readAtom storyline code = .ok c) :
    ∀ operand ∈ c.operands, operand.WrittenIn storyline := by
  unfold readAtom at h
  split at h
  · exact absurd h nofun
  rename_i s hstatement
  obtain ⟨hleft, hright⟩ := Statement.writtenIn_of_read hstatement
  split at h
  · obtain rfl := Except.ok.inj h
    exact List.forall_mem_cons.2 ⟨hleft, List.forall_mem_singleton.2 hright⟩
  · exact absurd h nofun

mutual

theorem operands_of_read (storyline : Option String) : (document : Json) → ∀ {c : Condition},
    read storyline document = .ok c → ∀ operand ∈ c.operands, operand.WrittenIn storyline
  | .str code, c, h => operands_of_readAtom (by rwa [read] at h)
  | .obj [(name, .arr items)], c, h => by
    rw [read] at h
    split at h
    · obtain ⟨members, hmembers, rfl⟩ := Except.exists_of_map h
      exact operands_of_readMembers storyline items hmembers
    · exact absurd h nofun
  | .null, _, h | .bool _, _, h | .num _, _, h | .arr _, _, h | .obj [], _, h
  | .obj [(_, .null)], _, h | .obj [(_, .bool _)], _, h | .obj [(_, .num _)], _, h
  | .obj [(_, .str _)], _, h | .obj [(_, .obj _)], _, h => by
    simp [read] at h
  | .obj (first :: second :: rest), _, h => by
    rw [read.eq_def] at h
    exact absurd h (by simp)

theorem operands_of_readMembers (storyline : Option String) : (items : List Json) →
    ∀ {members : List Condition}, readMembers storyline items = .ok members →
      ∀ operand ∈ operandsOfMembers members, operand.WrittenIn storyline
  | [], _, h => by
    rw [readMembers] at h
    obtain rfl := Except.ok.inj h
    exact fun operand hoperand => absurd hoperand List.not_mem_nil
  | item :: rest, _, h => by
    rw [readMembers] at h
    split at h
    · exact absurd h nofun
    rename_i hfirst
    obtain ⟨others, hothers, rfl⟩ := Except.exists_of_map h
    intro operand hoperand
    rcases List.mem_append.1 hoperand with hoperand | hoperand
    · exact operands_of_read storyline item hfirst operand hoperand
    · exact operands_of_readMembers storyline rest hothers operand hoperand

end

theorem WrittenIn.operands {storyline : Option String} {c : Condition} (h : c.WrittenIn storyline) :
    ∀ operand ∈ c.operands, operand.WrittenIn storyline := by
  obtain ⟨document, h⟩ := h
  exact operands_of_read storyline document h

theorem Written.operands {c : Condition} (h : c.Written) :
    ∀ operand ∈ c.operands, operand.Written := by
  obtain ⟨storyline, hwritten⟩ := h
  exact fun operand hoperand => ⟨storyline, WrittenIn.operands hwritten operand hoperand⟩

end Condition

end Narrative
