/-
# What a hook reads

Through the guest context a hook sees a store of cells: the program counter, the link
register, the registers of the two files, and the bytes of host memory behind guest
memory.  Guest ranges may share bytes, as the mirrors of the guest's memory do.

Whatever a hook asks for, it reads from each cell what it last wrote there, through
whichever index or range leads to it, or what was there when the hook was entered or the
original body last returned; what was refused has written nothing
(`hooks_read_what_was_written`).
-/

import GcnPort.Adapter.Confinement
import GcnPort.Foundation.Cells

namespace GcnPort
namespace Adapter

open Execution Foundation Hooks PowerPC

variable {D P ρ : Type}

/-- A cell of the store. -/
inductive GuestCell where
  | programCounter
  | linkRegister
  | generalRegister (i : Fin 32)
  | floatingRegister (i : Fin 32)
  | byte (p : Pointer)
deriving DecidableEq

/-- What a cell holds. -/
@[reducible]
def GuestCell.Value (D : Type) : GuestCell → Type
  | .programCounter | .linkRegister => GuestAddress
  | .generalRegister _ => UInt32
  | .floatingRegister _ => D
  | .byte _ => UInt8

/-- A store of the cells. -/
abbrev GuestCells (D : Type) := (c : GuestCell) → c.Value D

/-- The cells of Dolphin's state. -/
def Machine.cells (E : Dolphin D P ρ) (m : Machine P ρ) : GuestCells D
  | .programCounter => m.state.pc
  | .linkRegister => m.state.spr E.sprLR
  | .generalRegister i => m.state.gpr.get i
  | .floatingRegister i => E.ps0AsDouble (m.state.ps.get i)
  | .byte p => m.memory p

/-- What an operation writes, under the address map of `rest`. -/
def GuestOp.writes (E : Dolphin D P ρ) (rest : ρ) : GuestOp D → (c : GuestCell) → Option (c.Value D)
  | .setProgramCounter value, .programCounter => some value
  | .setLinkRegister value, .linkRegister => some value
  | .setGeneralRegister index value, .generalRegister i =>
    if index.toNat = i.val then some value else none
  | .setFloatingRegister index value, .floatingRegister i =>
    if index.toNat = i.val then some value else none
  | .writeMemory address source, .byte p =>
    match E.getPointerForRange address source.length rest with
    | none => none
    | some destination => if destination ≤ p then source[p - destination]? else none
  | _, _ => none

/-- The answer is what the cells, and the address map of `rest`, call for. -/
def GuestOp.Reads (E : Dolphin D P ρ) (rest : ρ) (cells : GuestCells D) :
    (op : GuestOp D) → op.Answer → Prop
  | .programCounter, answer => answer = cells .programCounter
  | .linkRegister, answer => answer = cells .linkRegister
  | .generalRegister index, answer =>
    answer = (checkedRegisterIndex index).map fun i => cells (.generalRegister i)
  | .setGeneralRegister index _, answer => answer = (checkedRegisterIndex index).map fun _ => ()
  | .floatingRegister index, answer =>
    answer = (checkedFloatingRegisterIndex index).map fun i => cells (.floatingRegister i)
  | .setFloatingRegister index _, answer =>
    answer = (checkedFloatingRegisterIndex index).map fun _ => ()
  | .readMemory address size, answer =>
    answer = (E.getPointerForRange address size rest).map fun source =>
      (List.range size).map fun i => cells (.byte (source + i))
  | .writeMemory address source, answer =>
    answer = (E.getPointerForRange address source.length rest).isSome
  | .setProgramCounter _, _ | .setLinkRegister _, _ | .callOriginal _, _ => True

/-- What `SetPS0` stores, `PS0AsDouble` reads. -/
def Dolphin.KeepsDoubles (E : Dolphin D P ρ) : Prop :=
  ∀ d p, E.ps0AsDouble (E.setPS0 d p) = d

/-- The cells after what was asked under the address map of `rest`. -/
def Transcript.cells (E : Dolphin D P ρ) (rest : ρ) (cells : GuestCells D)
    (asked : Transcript D) : GuestCells D :=
  contents (fun a => a.1.writes E rest) cells asked

/-- None of this runs the original body. -/
def Transcript.RunsNoBody (asked : Transcript D) : Prop :=
  ∀ a ∈ asked, ∀ maximum, a.1 ≠ .callOriginal maximum

/-- What was asked from `m` on, until `m'`, was answered from the cells. -/
structure ReadsWritten (E : Dolphin D P ρ) (key : PowerPC.HookKey) (asked : Transcript D)
    (m m' : Machine P ρ) : Prop where
  /-- What is asked is answered from what the cells held at any point before it, and what
  was written since, if the original body has not been run since. -/
  read : ∀ (before between : Transcript D) (op : GuestOp D) (answer : op.Answer) after,
    asked = before ++ between ++ ⟨op, answer⟩ :: after → between.RunsNoBody →
      ∃ m₁, Program.Plays (guestContext E key) before m m₁ ∧
        op.Reads E m₁.rest (between.cells E m₁.rest (m₁.cells E)) answer
  /-- In the same way the cells are left for Dolphin. -/
  left : ∀ before between : Transcript D, asked = before ++ between → between.RunsNoBody →
    ∃ m₁, Program.Plays (guestContext E key) before m m₁ ∧
      m'.cells E = between.cells E m₁.rest (m₁.cells E)

section

variable {E : Dolphin D P ρ} {key : PowerPC.HookKey} {m m' : Machine P ρ}
  {asked : Transcript D}

/-- **The step lemma of reading**, also for what is refused. -/
theorem reads_of_answer {op : GuestOp D} {answer : op.Answer}
    (h : guestContext E key op m = some (answer, m')) :
    op.Reads E m.rest (m.cells E) answer := by
  cases op with
  | programCounter | linkRegister =>
    obtain ⟨rfl, -⟩ := Prod.mk.inj (Option.some.inj h)
    rfl
  | setProgramCounter value | setLinkRegister value | callOriginal maximum => trivial
  | generalRegister index | setGeneralRegister index value | floatingRegister index
  | setFloatingRegister index value | readMemory address size | writeMemory address source =>
    rw [guestContext] at h
    split at h <;> rename_i hi <;> obtain ⟨rfl, -⟩ := Prod.mk.inj (Option.some.inj h) <;>
      simp only [GuestOp.Reads, hi] <;> rfl

/-- An index that is refused is out of range. -/
theorem le_toNat_of_checkedIndex {count : ℕ} {what : String} {index : UInt64} {e : Exception}
    (h : checkedIndex count what index = .error e) : count ≤ index.toNat := by
  rw [checkedIndex] at h
  split_ifs at h with hlt
  exact not_lt.1 hlt

/-- An index that is refused leads to no register. -/
theorem writes_of_refused {α : Type} {index : UInt64} {what : String} {e : Exception}
    (h : checkedIndex 32 what index = .error e) (i : Fin 32) (value : α) :
    (if index.toNat = i.val then some value else none) = none := by
  have hle := le_toNat_of_checkedIndex h
  exact if_neg (by omega)

/-- An index that is not refused leads to its register. -/
theorem getD_of_checkedIndex {α : Type} {index : UInt64} {what : String} {i : Fin 32}
    (h : checkedIndex 32 what index = .ok i) (j : Fin 32) (value other : α) :
    (if index.toNat = j.val then some value else none).getD other =
      if i = j then value else other := by
  rw [toNat_of_checkedIndex h]
  by_cases hij : i = j
  · rw [if_pos (congrArg Fin.val hij), if_pos hij, Option.getD_some]
  · rw [if_neg (Fin.val_ne_of_ne hij), if_neg hij, Option.getD_none]

/-- **The step lemma of writing**: an operation other than `call_original`. -/
theorem cells_of_answer (hE : E.KeepsDoubles) {op : GuestOp D} {answer : op.Answer}
    (hop : ∀ maximum, op ≠ .callOriginal maximum)
    (h : guestContext E key op m = some (answer, m')) (c : GuestCell) :
    m'.cells E c = (op.writes E m.rest c).getD (m.cells E c) := by
  cases op with
  | programCounter | linkRegister =>
    obtain ⟨-, rfl⟩ := Prod.mk.inj (Option.some.inj h)
    rfl
  | setProgramCounter value =>
    obtain ⟨-, rfl⟩ := Prod.mk.inj (Option.some.inj h)
    cases c <;> rfl
  | setLinkRegister value =>
    obtain ⟨-, rfl⟩ := Prod.mk.inj (Option.some.inj h)
    cases c with
    | linkRegister => exact Function.update_self ..
    | programCounter | generalRegister i | floatingRegister i | byte p => rfl
  | generalRegister index | floatingRegister index | readMemory address size =>
    rw [guestContext] at h
    split at h <;> obtain ⟨-, rfl⟩ := Prod.mk.inj (Option.some.inj h) <;> rfl
  | setGeneralRegister index value =>
    rw [guestContext] at h
    split at h <;> rename_i hi <;> obtain ⟨-, rfl⟩ := Prod.mk.inj (Option.some.inj h)
    · cases c with
      | generalRegister i => rw [GuestOp.writes, writes_of_refused hi, Option.getD_none]
      | programCounter | linkRegister | floatingRegister i | byte p => rfl
    · cases c with
      | generalRegister j =>
        rw [GuestOp.writes, getD_of_checkedIndex hi]
        exact get_set ..
      | programCounter | linkRegister | floatingRegister i | byte p => rfl
  | setFloatingRegister index value =>
    rw [guestContext] at h
    split at h <;> rename_i hi <;> obtain ⟨-, rfl⟩ := Prod.mk.inj (Option.some.inj h)
    · cases c with
      | floatingRegister i => rw [GuestOp.writes, writes_of_refused hi, Option.getD_none]
      | programCounter | linkRegister | generalRegister i | byte p => rfl
    · cases c with
      | floatingRegister j =>
        rw [GuestOp.writes, getD_of_checkedIndex hi, Machine.cells, Machine.setPs, get_set]
        split_ifs
        · exact hE ..
        · rfl
      | programCounter | linkRegister | generalRegister i | byte p => rfl
  | writeMemory address source =>
    rw [guestContext] at h
    split at h <;> rename_i hi <;> obtain ⟨-, rfl⟩ := Prod.mk.inj (Option.some.inj h)
    · cases c with
      | byte p => simp only [GuestOp.writes, hi, Option.getD_none]
      | programCounter | linkRegister | generalRegister i | floatingRegister i => rfl
    · cases c with
      | byte p =>
        simp only [GuestOp.writes, hi, Machine.cells, storeBytes]
        split_ifs
        · rfl
        · rfl
      | programCounter | linkRegister | generalRegister i | floatingRegister i => rfl
  | callOriginal maximum => exact absurd rfl (hop maximum)

/-- **The run lemma**: what was asked leaves what it wrote, unless it ran the body. -/
theorem cells_of_plays (hE : E.KeepsDoubles) (hasked : asked.RunsNoBody)
    (h : Program.Plays (guestContext E key) asked m m') :
    m'.rest = m.rest ∧ m'.cells E = asked.cells E m.rest (m.cells E) := by
  -- the address map stays what it was, so that one map tells what all of it writes
  refine h.contents (I := fun n => n.rest = m.rest)
    (R := fun op : GuestOp D => ∀ maximum, op ≠ .callOriginal maximum)
    (fun op n answer n' hop hn hstep => ?_) rfl hasked
  refine ⟨(Confined.step hop hstep).rest.trans hn, funext fun c => ?_⟩
  rw [contents_singleton, cells_of_answer hE hop hstep c, hn]

end

/-- **Hooks read what was written.**  Whatever a hook asks for, from whatever state, and
whether it returns a result or throws. -/
theorem hooks_read_what_was_written {E : Dolphin D P ρ} (hE : E.KeepsDoubles)
    (key : PowerPC.HookKey) (hook : HookProgram D) {m m' : Machine P ρ} {asked : Transcript D}
    {value : Except Exception HookResult}
    (h : hook.run (guestContext E key) m = some (value, asked, m')) :
    ReadsWritten E key asked m m' := by
  obtain ⟨-, hplays⟩ := Program.run_eq_some_iff.1 h
  refine ⟨?_, ?_⟩
  · rintro before between op answer after rfl hbetween
    obtain ⟨m₂, hfirst, m₃, hop, -⟩ := Program.plays_append.1 hplays
    obtain ⟨m₁, hbefore, hown⟩ := Program.plays_append.1 hfirst
    obtain ⟨hrest, hcells⟩ := cells_of_plays hE hbetween hown
    refine ⟨m₁, hbefore, ?_⟩
    rw [← hcells, ← hrest]
    exact reads_of_answer hop
  · rintro before between rfl hbetween
    obtain ⟨m₁, hbefore, hown⟩ := Program.plays_append.1 hplays
    exact ⟨m₁, hbefore, (cells_of_plays hE hbetween hown).2⟩

/-- A Dolphin whose guest memory has a mirror. -/
def mirrored : Dolphin ℕ (ℕ × ℕ) Unit :=
  { counting with
    getPointerForRange := fun address _ _ =>
      if address < 0x80000000 then none else some (address &&& 0x3fffffff).toNat }

/-- A hook that writes two bytes, is refused another two, runs the original body, writes
over one of the bytes and reads both through the mirror. -/
def mirrorRead : HookProgram ℕ :=
  .ask (.writeMemory 0x80001000 [1, 2]) fun _ =>
    .ask (.writeMemory 0x1000 [3, 4]) fun _ =>
      .ask (.callOriginal 8) fun _ =>
        .ask (.writeMemory 0xC0001001 [5]) fun _ =>
          .ask (.readMemory 0xC0001000 2) fun _ => .ret (.ok {})

/-- A hook that reads at a mirrored address what it wrote at another. -/
theorem hooks_read_what_was_written_mirror :
    ∃ (asked : Transcript ℕ) (m' : Machine (ℕ × ℕ) Unit),
      asked.getLast? = some ⟨.readMemory 0xC0001000 2, some [1, 5]⟩ ∧
        ReadsWritten mirrored superKey asked (sevens 0 0) m' :=
  ⟨_, _, rfl, hooks_read_what_was_written (fun _ _ => rfl) superKey mirrorRead rfl⟩

end Adapter
end GcnPort
