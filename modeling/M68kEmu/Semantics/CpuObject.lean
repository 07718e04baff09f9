import M68kEmu.Model.CpuObject
import M68kEmu.Model.Memory
import Mathlib.Data.List.Induction

/-!
# The memory of a `CPUState` object

The constructors keep `memory` bound to the object that `memoryPtr` points to.  An assignment
moves the pointer, but cannot move the reference: it keeps them together only between objects
with the same memory.
-/

namespace M68kEmu

variable {ν ι M : Type}

/-! ### The invariant -/

/-- The reference of every live object is bound to what its pointer points to. -/
def World.NamesMemory (w : World ν ι M) : Prop :=
  ∀ a obj, w.objects a = some obj → obj.memory = obj.memoryPtr

section Statements

variable {w w' : World ν ι M} {a b : ν} {obj rh : CpuObject ι}

theorem World.namesMemory_start (memories : ι → M) :
    (World.start memories : World ν ι M).NamesMemory := nofun

variable [DecidableEq ν]

theorem World.objects_put_self (w : World ν ι M) (a : ν) (obj : CpuObject ι) :
    (w.put a obj).objects a = some obj :=
  Function.update_self ..

theorem World.objects_put_of_ne (w : World ν ι M) (obj : CpuObject ι) (h : b ≠ a) :
    (w.put a obj).objects b = w.objects b := Function.update_of_ne h ..

/-- A new object that names its memory. -/
theorem World.NamesMemory.put (h : w.NamesMemory) (a : ν) (hobj : obj.memory = obj.memoryPtr) :
    (w.put a obj).NamesMemory := by
  intro c obj' hc
  obtain rfl | hne := eq_or_ne c a
  · rw [World.objects_put_self] at hc
    rwa [← Option.some.inj hc]
  · rw [World.objects_put_of_ne _ _ hne] at hc
    exact h c obj' hc

variable [DecidableEq ι]

theorem run_assign (ha : w.objects a = some obj) (hb : w.objects b = some rh) :
    (Statement.assign a b).run w = some (w.put a (obj.assign rh)) := by
  simp only [Statement.run, ha, hb]

/-- A statement keeps the invariant, if it is no assignment between objects with
different memories. -/
theorem World.NamesMemory.run (h : w.NamesMemory) {statement : Statement ν ι M}
    (hrun : statement.run w = some w') (hassign : ∀ a b obj rh, statement = .assign a b →
      w.objects a = some obj → w.objects b = some rh →
      obj.memoryPtr = rh.memoryPtr) : w'.NamesMemory := by
  cases statement with
  | construct a inMemory =>
    simp only [Statement.run] at hrun
    split at hrun <;> cases hrun
    exact h.put a rfl
  | copy a b =>
    simp only [Statement.run] at hrun
    split at hrun <;> cases hrun
    next rh _ hb => exact h.put a (h b rh hb)
  | assign a b =>
    simp only [Statement.run] at hrun
    split at hrun <;> cases hrun
    next obj rh ha hb =>
      have hsame := hassign a b obj rh rfl ha hb
      exact h.put a ((h a obj ha).trans hsame)
  | call a method =>
    simp only [Statement.run] at hrun
    split at hrun <;> cases hrun
    next obj ha => exact h.put a (h a obj ha)

/-- After an assignment both objects point to the same memory. -/
theorem memoryPtr_of_assign (hrun : (Statement.assign a b).run w = some w')
    (ha : w'.objects a = some obj)
    (hb : w'.objects b = some rh) : obj.memoryPtr = rh.memoryPtr := by
  simp only [Statement.run] at hrun
  split at hrun <;> cases hrun
  next obj₁ rh₁ ha₁ hb₁ =>
    rw [World.objects_put_self] at ha
    obtain rfl := Option.some.inj ha
    obtain rfl | hne := eq_or_ne b a
    · rw [World.objects_put_self] at hb
      rw [← Option.some.inj hb]
    · rw [World.objects_put_of_ne _ _ hne, hb₁] at hb
      rw [← Option.some.inj hb, CpuObject.assign]

end Statements

/-! ### Runs -/

variable [DecidableEq ν] [DecidableEq ι]

/-- In every world that the run reaches, every object names its memory, and after an assignment both
objects use the same one. -/
structure AlwaysNamesMemory (memories : ι → M) (statements : List (Statement ν ι M)) : Prop where
  named : ∀ earlier later w, statements = earlier ++ later →
    runStatements (.start memories) earlier = some w → w.NamesMemory
  assigned : ∀ earlier a b later w obj rh, statements = earlier ++ .assign a b :: later →
    runStatements (.start memories) (earlier ++ [.assign a b]) = some w →
    w.objects a = some obj → w.objects b = some rh → obj.memory = rh.memory

/-- Every assignment of the run is between objects that point to the same memory. -/
def AssignsAlike (memories : ι → M) (statements : List (Statement ν ι M)) : Prop :=
  ∀ earlier a b later w obj rh, statements = earlier ++ .assign a b :: later →
    runStatements (.start memories) earlier = some w → w.objects a = some obj →
    w.objects b = some rh → obj.memoryPtr = rh.memoryPtr

section Runs

variable {w w' : World ν ι M}

theorem runStatements_append (w : World ν ι M) (earlier later : List (Statement ν ι M)) :
    runStatements w (earlier ++ later) = (runStatements w earlier).bind fun w' =>
    runStatements w' later := by
  induction earlier generalizing w with
  | nil => rfl
  | cons statement earlier ih =>
    rw [List.cons_append, runStatements, runStatements]
    rcases statement.run w with _ | w₁
    · rfl
    · exact ih w₁

/-- The last statement of a run. -/
theorem runStatements_snoc {earlier : List (Statement ν ι M)} {statement : Statement ν ι M} :
    runStatements w (earlier ++ [statement]) = some w' ↔
      ∃ w₁, runStatements w earlier = some w₁ ∧ statement.run w₁ = some w' := by
  rw [runStatements_append, Option.bind_eq_some_iff]
  refine exists_congr fun w₁ => and_congr_right fun _ => ?_
  rw [runStatements]
  rcases statement.run w₁ with _ | w₂ <;> simp [runStatements]

/-- A run whose assignments are between objects with the same memory keeps the invariant. -/
theorem namesMemory_of_assignsAlike {memories : ι → M} {statements : List (Statement ν ι M)}
    (h : AssignsAlike memories statements) {earlier later : List (Statement ν ι M)}
    (hsplit : statements = earlier ++ later)
    (hrun : runStatements (.start memories) earlier = some w) :
    w.NamesMemory := by
  induction earlier using List.reverseRecOn generalizing later w with
  | nil =>
    obtain rfl := Option.some.inj hrun
    exact World.namesMemory_start memories
  | append_singleton earlier statement ih =>
    rw [List.append_assoc, List.singleton_append] at hsplit
    obtain ⟨w₁, hrun₁, hstatement⟩ := runStatements_snoc.1 hrun
    refine (ih hsplit hrun₁).run hstatement fun a b obj rh heq ha hb => ?_
    exact h earlier a b later w₁ obj rh (heq ▸ hsplit) hrun₁ ha hb

end Runs

/-- A run keeps every object on the memory that it names exactly if it assigns only between objects
that point to the same memory. -/
theorem names_memory_iff (memories : ι → M) (statements : List (Statement ν ι M)) :
    AlwaysNamesMemory memories statements ↔ AssignsAlike memories statements := by
  constructor
  · intro h earlier a b later w obj rh hsplit hrun ha hb
    have hrun' : runStatements (.start memories) (earlier ++ [.assign a b]) =
        some (w.put a (obj.assign rh)) :=
      runStatements_snoc.2 ⟨w, hrun, run_assign ha hb⟩
    have hbefore := h.named earlier _ w hsplit hrun a obj ha
    have hafter :=
      h.named (earlier ++ [.assign a b]) later _ (by rw [hsplit, List.append_assoc]; rfl) hrun' a
      (obj.assign rh) (World.objects_put_self ..)
    exact hbefore.symm.trans hafter
  · intro h
    refine ⟨fun earlier later w hsplit hrun => namesMemory_of_assignsAlike h hsplit hrun, ?_⟩
    intro earlier a b later w obj rh hsplit hrun ha hb
    have hnamed : w.NamesMemory := namesMemory_of_assignsAlike h
      (show statements = (earlier ++ [.assign a b]) ++ later by rw [hsplit, List.append_assoc]; rfl)
      hrun
    obtain ⟨w₁, -, hassign⟩ := runStatements_snoc.1 hrun
    rw [hnamed a obj ha, hnamed b rh hb, memoryPtr_of_assign hassign ha hb]

/-- After `CPUState a(&m); CPUState b(&n); a = b;` the pointer of `a` points to `n` and its
reference is bound to `m`. -/
theorem assignment_parts_reference :
    ¬AlwaysNamesMemory (ν := ℕ) (fun _ : Bool => simpleMemory fun _ => 0)
      [.construct 0 false, .construct 1 true, .assign 0 1] := by
  intro h
  have hnamed := h.named _ [] _ (List.append_nil _).symm rfl 0 _ rfl
  cases hnamed

end M68kEmu
