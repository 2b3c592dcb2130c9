/-
# What a hook can change

Whatever a hook asks for, it changes the processor and guest memory only where
`GuestContext` lets it, and only what it asked to change (`Confined`): nothing of
Dolphin besides, no special purpose register but the link register, nothing of a paired
single that `SetPS0` leaves alone, no byte outside the ranges that
`GetPointerForRange` granted for its writes, and no register at all through an index
that is out of range.  In between it may run the body it stands in for, always under
the key the context was constructed with (`Behaved`).
-/

import GcnPort.Adapter.GuestContext

namespace GcnPort
namespace Adapter

open Execution Foundation Hooks PowerPC

variable {D P ρ : Type}

/-- What is asked of the guest context, with the answers. -/
abbrev Transcript (D : Type) := List (Asked (GuestOp.Answer (D := D)))

/-- The byte at `q` is in a range that was granted for a write. -/
def Transcript.Writes (E : Dolphin D P ρ) (rest : ρ) (asked : Transcript D) (q : Pointer) :
    Prop :=
  ∃ address source destination, ⟨.writeMemory address source, true⟩ ∈ asked ∧
    E.getPointerForRange address source.length rest = some destination ∧
      destination ≤ q ∧ q < destination + source.length

/-- The state after what was asked, which did not run the original body. -/
structure Confined (E : Dolphin D P ρ) (asked : Transcript D) (m m' : Machine P ρ) : Prop where
  rest : m'.rest = m.rest
  spr : ∀ i, i ≠ E.sprLR → m'.state.spr i = m.state.spr i
  linkRegister : (∀ value, ⟨.setLinkRegister value, ()⟩ ∉ asked) →
    m'.state.spr E.sprLR = m.state.spr E.sprLR
  programCounter : (m'.state.pc = m.state.pc ∧ m'.state.npc = m.state.npc) ∨
    (m'.state.npc = m'.state.pc ∧ ⟨.setProgramCounter m'.state.pc, ()⟩ ∈ asked)
  gpr : ∀ i : Fin 32, m'.state.gpr.get i = m.state.gpr.get i ∨
    ∃ index, index.toNat = i.val ∧ ⟨.setGeneralRegister index (m'.state.gpr.get i), .ok ()⟩ ∈ asked
  ps : ∀ i : Fin 32, (∀ index value, index.toNat = i.val →
    ⟨.setFloatingRegister index value, .ok ()⟩ ∉ asked) → m'.state.ps.get i = m.state.ps.get i
  otherHalf : ∀ {X : Type} (half : P → X), (∀ d p, half (E.setPS0 d p) = half p) →
    ∀ i : Fin 32, half (m'.state.ps.get i) = half (m.state.ps.get i)
  memory : ∀ q, ¬asked.Writes E m.rest q → m'.memory q = m.memory q

/-- What a hook does that is given the context for `key`: it changes what it may, and
in between it may run the original body of `key`. -/
inductive Behaved (E : Dolphin D P ρ) (key : PowerPC.HookKey) :
    Transcript D → Machine P ρ → Machine P ρ → Prop
  | confined {asked : Transcript D} {m m' : Machine P ρ} (h : Confined E asked m m') :
      Behaved E key asked m m'
  | original {asked asked' : Transcript D} {m m₁ m₂ m' : Machine P ρ} {maximum : UInt32}
      {answer : InterpretedBlock} (h : Confined E asked m m₁)
      (call : E.callOriginalSynchronously key maximum m₁ = some (answer, m₂))
      (rest : Behaved E key asked' m₂ m') :
      Behaved E key (asked ++ ⟨.callOriginal maximum, answer⟩ :: asked') m m'

section

variable {E : Dolphin D P ρ} {key : PowerPC.HookKey} {asked asked' : Transcript D}
  {m m₁ m' : Machine P ρ}

/-- What a part of a transcript writes, the whole writes. -/
theorem Transcript.Writes.mono {rest : ρ} {q : Pointer} (h : asked.Writes E rest q)
    (hsub : asked ⊆ asked') : Transcript.Writes E rest asked' q := by
  obtain ⟨address, source, destination, hmem, hpointer, hq⟩ := h
  exact ⟨address, source, destination, hsub hmem, hpointer, hq⟩

/-- A register after one of them is set. -/
theorem get_set {α : Type*} {n : ℕ} (v : Vector α n) (i j : Fin n) (x : α) :
    (v.set i.val x i.isLt).get j = if i = j then x else v.get j := by
  rw [Vector.get_eq_getElem, Vector.getElem_set, Vector.get_eq_getElem]
  simp only [Fin.ext_iff]

/-- An index that is let through is the number it stands for. -/
theorem toNat_of_checkedIndex {count : ℕ} {what : String} {index : UInt64} {i : Fin count}
    (h : checkedIndex count what index = .ok i) : index.toNat = i.val := by
  rw [checkedIndex] at h
  split_ifs at h
  rw [← Except.ok.inj h]

/-- A byte that is not stored to stays as it was. -/
theorem storeBytes_of_not_mem {memory : Pointer → UInt8} {destination q : ℕ}
    {bytes : List UInt8} (h : ¬(destination ≤ q ∧ q < destination + bytes.length)) :
    storeBytes memory destination bytes q = memory q := by
  rw [storeBytes]
  split_ifs with hle
  · have hlt : ¬q < destination + bytes.length := fun hlt => h ⟨hle, hlt⟩
    rw [List.getElem?_eq_none (Nat.le_sub_of_add_le' (not_lt.1 hlt))]
    rfl
  · rfl

namespace Confined

/-- Nothing at all is confined. -/
theorem refl (E : Dolphin D P ρ) (asked : Transcript D) (m : Machine P ρ) :
    Confined E asked m m :=
  ⟨rfl, fun _ _ => rfl, fun _ => rfl, .inl ⟨rfl, rfl⟩, fun _ => .inl rfl, fun _ _ => rfl,
    fun _ _ _ => rfl, fun _ _ => rfl⟩

/-- What is confined, and then confined again, is confined. -/
theorem trans (h : Confined E asked m m₁) (h' : Confined E asked' m₁ m') :
    Confined E (asked ++ asked') m m' := by
  have hleft : asked ⊆ asked ++ asked' := List.subset_append_left ..
  have hright : asked' ⊆ asked ++ asked' := List.subset_append_right ..
  refine ⟨h'.rest.trans h.rest, fun i hi => (h'.spr i hi).trans (h.spr i hi), fun hlr => ?_, ?_,
    fun i => ?_, fun i hi => ?_, fun half hhalf i => (h'.otherHalf half hhalf i).trans
      (h.otherHalf half hhalf i), fun q hq => ?_⟩
  · exact (h'.linkRegister fun value hmem => hlr value (hright hmem)).trans
      (h.linkRegister fun value hmem => hlr value (hleft hmem))
  · rcases h'.programCounter with ⟨hpc', hnpc'⟩ | ⟨hnpc', hmem'⟩
    · rw [hpc', hnpc']
      exact h.programCounter.imp_right fun hset => ⟨hset.1, hleft hset.2⟩
    · exact .inr ⟨hnpc', hright hmem'⟩
  · rcases h'.gpr i with hgpr' | ⟨index, hindex, hmem'⟩
    · rw [hgpr']
      exact (h.gpr i).imp_right fun ⟨index, hindex, hmem⟩ => ⟨index, hindex, hleft hmem⟩
    · exact .inr ⟨index, hindex, hright hmem'⟩
  · exact (h'.ps i fun index value hindex hmem => hi index value hindex (hright hmem)).trans
      (h.ps i fun index value hindex hmem => hi index value hindex (hleft hmem))
  · rw [h'.memory q fun hw => hq (h.rest ▸ hw.mono hright), h.memory q fun hw => hq (hw.mono hleft)]

/-- **The step lemma**: an operation other than `call_original`. -/
theorem step {op : GuestOp D} {answer : op.Answer} (hop : ∀ maximum, op ≠ .callOriginal maximum)
    (h : guestContext E key op m = some (answer, m')) : Confined E [⟨op, answer⟩] m m' := by
  cases op with
  | programCounter =>
    obtain ⟨-, rfl⟩ := Prod.mk.inj (Option.some.inj h)
    exact refl ..
  | setProgramCounter value =>
    obtain ⟨-, rfl⟩ := Prod.mk.inj (Option.some.inj h)
    exact { refl E [⟨.setProgramCounter value, answer⟩] m with
      programCounter := .inr ⟨rfl, List.mem_singleton_self _⟩ }
  | linkRegister =>
    obtain ⟨-, rfl⟩ := Prod.mk.inj (Option.some.inj h)
    exact refl ..
  | setLinkRegister value =>
    obtain ⟨-, rfl⟩ := Prod.mk.inj (Option.some.inj h)
    exact { refl E [⟨.setLinkRegister value, answer⟩] m with
      spr := fun i hi => Function.update_of_ne hi _ _
      linkRegister := fun hlr => absurd (List.mem_singleton_self _) (hlr value) }
  | generalRegister index =>
    rw [guestContext] at h
    split at h <;> obtain ⟨-, rfl⟩ := Prod.mk.inj (Option.some.inj h) <;> exact refl ..
  | setGeneralRegister index value =>
    rw [guestContext] at h
    split at h
    · obtain ⟨-, rfl⟩ := Prod.mk.inj (Option.some.inj h)
      exact refl ..
    · rename_i i hi
      obtain ⟨rfl, rfl⟩ := Prod.mk.inj (Option.some.inj h)
      refine { refl E [⟨.setGeneralRegister index value, .ok ()⟩] m with gpr := fun j => ?_ }
      rw [Machine.setGpr, get_set]
      by_cases hij : i = j
      · subst hij
        rw [if_pos rfl]
        exact .inr ⟨index, toNat_of_checkedIndex hi, List.mem_singleton_self _⟩
      · rw [if_neg hij]
        exact .inl rfl
  | floatingRegister index =>
    rw [guestContext] at h
    split at h <;> obtain ⟨-, rfl⟩ := Prod.mk.inj (Option.some.inj h) <;> exact refl ..
  | setFloatingRegister index value =>
    rw [guestContext] at h
    split at h
    · obtain ⟨-, rfl⟩ := Prod.mk.inj (Option.some.inj h)
      exact refl ..
    · rename_i i hi
      obtain ⟨rfl, rfl⟩ := Prod.mk.inj (Option.some.inj h)
      refine { refl E [⟨.setFloatingRegister index value, .ok ()⟩] m with
        ps := fun j hj => ?_, otherHalf := fun half hhalf j => ?_ } <;>
        rw [Machine.setPs, get_set]
      · refine if_neg fun hij => ?_
        subst hij
        exact hj index value (toNat_of_checkedIndex hi) (List.mem_singleton_self _)
      · split_ifs with hij
        · subst hij
          exact hhalf _ _
        · rfl
  | readMemory address size =>
    rw [guestContext] at h
    split at h <;> obtain ⟨-, rfl⟩ := Prod.mk.inj (Option.some.inj h) <;> exact refl ..
  | writeMemory address source =>
    rw [guestContext] at h
    split at h
    · obtain ⟨-, rfl⟩ := Prod.mk.inj (Option.some.inj h)
      exact refl ..
    · rename_i destination hpointer
      obtain ⟨rfl, rfl⟩ := Prod.mk.inj (Option.some.inj h)
      refine { refl E [⟨.writeMemory address source, true⟩] m with memory := fun q hq => ?_ }
      refine storeBytes_of_not_mem fun hlt => hq ?_
      exact ⟨address, source, destination, List.mem_singleton_self _, hpointer, hlt⟩
  | callOriginal maximum => exact absurd rfl (hop maximum)

end Confined

/-- What is confined, and then behaves, behaves. -/
theorem Behaved.cons (h : Confined E asked m m₁) (h' : Behaved E key asked' m₁ m') :
    Behaved E key (asked ++ asked') m m' := by
  cases h' with
  | confined h' => exact .confined (h.trans h')
  | original h' call rest =>
    rw [← List.append_assoc]
    exact .original (h.trans h') call rest

end

/-- **Hooks are confined.**  Whatever a hook asks for, from whatever state, and whether it
returns a result or throws. -/
theorem hooks_confined (E : Dolphin D P ρ) (key : PowerPC.HookKey) (hook : HookProgram D)
    {m m' : Machine P ρ} {asked : Transcript D} {value : Except Exception HookResult}
    (h : hook.run (guestContext E key) m = some (value, asked, m')) :
    Behaved E key asked m m' := by
  refine Program.run_related (R := Behaved E key) (fun m => .confined (.refl E [] m))
    (fun op m answer m₁ asked m' hop hrest => ?_) h
  by_cases horiginal : ∃ maximum, op = .callOriginal maximum
  · obtain ⟨maximum, rfl⟩ := horiginal
    exact .original (.refl E [] m) hop hrest
  · exact .cons (Confined.step (not_exists.1 horiginal) hop) hrest

/-- A Dolphin whose paired singles are pairs, whose guest memory is the host's at an
offset, and whose original bodies increment `r3` and return. -/
def counting : Dolphin ℕ (ℕ × ℕ) Unit where
  ps0AsDouble p := p.1
  setPS0 d p := (d, p.2)
  sprLR := 8
  getPointerForRange address _ _ := if address < 0x80000000 then none else some address.toNat
  callOriginalSynchronously _ _ m := some (⟨m.state.pc, 2⟩, m.setGpr 3 (m.state.gpr.get 3 + 1))

/-- A hook that runs the body it stands in for between two pieces of native work. -/
def superCall : HookProgram ℕ :=
  .ask (.callOriginal 8) fun _ =>
    .ask (.generalRegister 3) fun
      | .error e => .ret (.error e)
      | .ok after => .ask (.setGeneralRegister 3 (after * 10)) fun _ => .ret (.ok {})

/-- The key that `superCall` is installed at. -/
def superKey : PowerPC.HookKey := ⟨⟨⟨.replicate 32 1⟩, 0⟩, 0x80004000⟩

/-- A hook that calls the original and then sets a register. -/
theorem hooks_confined_superCall :
    ∃ (asked : Transcript ℕ) (m m' : Machine (ℕ × ℕ) Unit), asked.length = 3 ∧
      m.state.gpr.get 3 = 5 ∧ m'.state.gpr.get 3 = 60 ∧ Behaved counting superKey asked m m' := by
  let m : Machine (ℕ × ℕ) Unit :=
    ⟨⟨0x80004000, 0x80004000, fun _ => 0, .replicate 32 5, .replicate 32 (0, 0)⟩, fun _ => 0, ()⟩
  refine ⟨_, m, _, ?_, ?_, ?_, hooks_confined counting superKey superCall (m := m) rfl⟩ <;> decide

/-- Two states that look the same through the guest context. -/
structure Alike (E : Dolphin D P ρ) (m n : Machine P ρ) : Prop where
  pc : m.state.pc = n.state.pc
  linkRegister : m.state.spr E.sprLR = n.state.spr E.sprLR
  gpr : m.state.gpr = n.state.gpr
  ps : ∀ i, E.ps0AsDouble (m.state.ps.get i) = E.ps0AsDouble (n.state.ps.get i)
  memory : m.memory = n.memory
  range : ∀ address size,
    E.getPointerForRange address size m.rest = E.getPointerForRange address size n.rest

/-- What `SetPS0` stores is what `PS0AsDouble` reads, whatever is in the other half. -/
def Dolphin.Scalar (E : Dolphin D P ρ) : Prop :=
  ∀ d p p', E.ps0AsDouble (E.setPS0 d p) = E.ps0AsDouble (E.setPS0 d p')

/-- **The step lemma of the view**: an operation other than `call_original`. -/
theorem Alike.step {E : Dolphin D P ρ} (hE : E.Scalar) {key key' : PowerPC.HookKey}
    {m m' n : Machine P ρ} (h : Alike E m n) {op : GuestOp D} {answer : op.Answer}
    (hop : ∀ maximum, op ≠ .callOriginal maximum)
    (hm : guestContext E key op m = some (answer, m')) :
    ∃ n', guestContext E key' op n = some (answer, n') ∧ Alike E m' n' := by
  cases op with
  | programCounter =>
    obtain ⟨rfl, rfl⟩ := Prod.mk.inj (Option.some.inj hm)
    exact ⟨n, by rw [guestContext, h.pc], h⟩
  | setProgramCounter value =>
    obtain ⟨rfl, rfl⟩ := Prod.mk.inj (Option.some.inj hm)
    exact ⟨n.setPc value, rfl, { h with pc := rfl }⟩
  | linkRegister =>
    obtain ⟨rfl, rfl⟩ := Prod.mk.inj (Option.some.inj hm)
    exact ⟨n, by rw [guestContext, h.linkRegister], h⟩
  | setLinkRegister value =>
    obtain ⟨rfl, rfl⟩ := Prod.mk.inj (Option.some.inj hm)
    refine ⟨n.setSpr E.sprLR value, rfl, { h with linkRegister := ?_ }⟩
    simp only [Machine.setSpr, Function.update_self]
  | generalRegister index =>
    rw [guestContext] at hm ⊢
    split at hm <;> obtain ⟨rfl, rfl⟩ := Prod.mk.inj (Option.some.inj hm) <;> rename_i hi
    · exact ⟨n, rfl, h⟩
    · exact ⟨n, by rw [h.gpr], h⟩
  | setGeneralRegister index value =>
    rw [guestContext] at hm ⊢
    split at hm <;> obtain ⟨rfl, rfl⟩ := Prod.mk.inj (Option.some.inj hm) <;> rename_i hi
    · exact ⟨n, rfl, h⟩
    · rename_i i
      refine ⟨n.setGpr i value, rfl, { h with gpr := ?_ }⟩
      simp only [Machine.setGpr, h.gpr]
  | floatingRegister index =>
    rw [guestContext] at hm ⊢
    split at hm <;> obtain ⟨rfl, rfl⟩ := Prod.mk.inj (Option.some.inj hm) <;> rename_i hi
    · exact ⟨n, rfl, h⟩
    · exact ⟨n, by rw [h.ps], h⟩
  | setFloatingRegister index value =>
    rw [guestContext] at hm ⊢
    split at hm <;> obtain ⟨rfl, rfl⟩ := Prod.mk.inj (Option.some.inj hm) <;> rename_i hi
    · exact ⟨n, rfl, h⟩
    · rename_i i
      refine ⟨n.setPs i (E.setPS0 value (n.state.ps.get i)), rfl,
        { h with ps := fun j => ?_ }⟩
      rw [Machine.setPs, Machine.setPs, get_set, get_set]
      split_ifs
      · exact hE ..
      · exact h.ps j
  | readMemory address size =>
    rw [guestContext] at hm ⊢
    rw [← h.range]
    split at hm <;> obtain ⟨rfl, rfl⟩ := Prod.mk.inj (Option.some.inj hm) <;> rename_i hi
    · exact ⟨n, rfl, h⟩
    · exact ⟨n, by rw [h.memory], h⟩
  | writeMemory address source =>
    rw [guestContext] at hm ⊢
    rw [← h.range]
    split at hm <;> obtain ⟨rfl, rfl⟩ := Prod.mk.inj (Option.some.inj hm) <;> rename_i hi
    · exact ⟨n, rfl, h⟩
    · exact ⟨_, rfl, { h with memory := by simp only [h.memory] }⟩
  | callOriginal maximum => exact absurd rfl (hop maximum)

/-- **Hooks see only the guest context.**  A hook that does not run the original body
takes the same course, with the same result, from all states that look the same. -/
theorem hooks_see_only_the_view {E : Dolphin D P ρ} (hE : E.Scalar) (key key' : PowerPC.HookKey)
    (hook : HookProgram D) {m m' n : Machine P ρ} (hmn : Alike E m n) {asked : Transcript D}
    {value : Except Exception HookResult}
    (h : hook.run (guestContext E key) m = some (value, asked, m'))
    (hasked : ∀ a ∈ asked, ∀ maximum, a.1 ≠ .callOriginal maximum) :
    ∃ n', hook.run (guestContext E key') n = some (value, asked, n') ∧ Alike E m' n' :=
  Program.run_follows (R := Alike E) (P := fun op => ∀ maximum, op ≠ .callOriginal maximum)
    (fun _ _ _ _ _ hop hmn hm => hmn.step hE hop hm) hmn hasked h

/-- A hook that copies a floating register. -/
def copyFloat : HookProgram ℕ :=
  .ask (.floatingRegister 1) fun
    | .error e => .ret (.error e)
    | .ok d => .ask (.setFloatingRegister 2 d) fun _ => .ret (.ok {})

/-- A state with sevens in the floating registers. -/
def sevens (npc : GuestAddress) (half : ℕ) : Machine (ℕ × ℕ) Unit :=
  ⟨⟨0x80004000, npc, fun _ => 0, .replicate 32 5, .replicate 32 (7, half)⟩, fun _ => 0, ()⟩

/-- From two states that differ in what the guest context does not show. -/
theorem hooks_see_only_the_view_copyFloat :
    ∃ n', copyFloat.run (guestContext counting superKey) (sevens 4 9) = some (.ok {},
        [⟨.floatingRegister 1, .ok 7⟩, ⟨.setFloatingRegister 2 7, .ok ()⟩], n') ∧
      Alike counting ((sevens 0 8).setPs 2 (7, 8)) n' :=
  have hmn : Alike counting (sevens 0 8) (sevens 4 9) :=
    ⟨rfl, rfl, rfl, fun i => by simp [sevens, counting, Vector.get_eq_getElem], rfl, fun _ _ => rfl⟩
  hooks_see_only_the_view (fun _ _ _ => rfl) superKey superKey copyFloat hmn rfl (by simp)

end Adapter
end GcnPort
