import AdGuardHome.Lib.Machine
import Mathlib.Data.List.Forall2

/-! Threads that share a state under one reader/writer lock. The lock is not reentrant: a
writer excludes everyone, itself included. -/
namespace Locking

open Transition

universe u v w

inductive Mode where
  | read
  | write
deriving DecidableEq

structure RWMutex where
  writer : Bool
  readers : Nat
deriving DecidableEq

namespace RWMutex

def free : RWMutex := ⟨false, 0⟩

/-- A reader waits for the writer, a writer for everyone. -/
def admits (mutex : RWMutex) : Mode → Bool
  | .read => !mutex.writer
  | .write => !mutex.writer && mutex.readers == 0

def acquire (mutex : RWMutex) : Mode → RWMutex
  | .read => { mutex with readers := mutex.readers + 1 }
  | .write => { mutex with writer := true }

def release (mutex : RWMutex) : Mode → RWMutex
  | .read => { mutex with readers := mutex.readers - 1 }
  | .write => { mutex with writer := false }

/-- The lock accounts for what each thread holds. -/
structure Accounts (mutex : RWMutex) (holds : List (Option Mode)) : Prop where
  readers : mutex.readers = holds.count (some .read)
  writer : mutex.writer.toNat = holds.count (some .write)
  exclusive : mutex.writer = true → mutex.readers = 0

namespace Accounts

variable {mutex : RWMutex} {holds : List (Option Mode)}

theorem admits (accounts : mutex.Accounts holds) (idle : ∀ hold ∈ holds, hold = none)
    (mode : Mode) : mutex.admits mode = true := by
  have nobody : ∀ mode, holds.count (some mode) = 0 := by
    intro mode
    apply List.count_eq_zero.mpr
    intro member
    exact nomatch idle _ member
  have readers := accounts.readers
  have writer := accounts.writer
  rw [nobody] at readers writer
  cases mode <;> cases given : mutex.writer <;> simp_all [RWMutex.admits]

theorem add (accounts : mutex.Accounts holds) : mutex.Accounts (holds ++ [none]) where
  readers := by simpa using accounts.readers
  writer := by simpa using accounts.writer
  exclusive := accounts.exclusive

theorem acquire (accounts : mutex.Accounts holds) {i : Nat} (idle : holds[i]? = some none)
    {mode : Mode} (admitted : mutex.admits mode = true) :
    (mutex.acquire mode).Accounts (holds.set i (some mode)) := by
  obtain ⟨bound, here⟩ := List.getElem?_eq_some_iff.mp idle
  have readers := accounts.readers
  have writer := accounts.writer
  cases mode with
  | read =>
    have nobody : mutex.writer = false := by simpa [RWMutex.admits] using admitted
    constructor
    · simp [RWMutex.acquire, List.count_set bound, here, readers]
    · simpa [RWMutex.acquire, List.count_set bound, here] using writer
    · simp [RWMutex.acquire, nobody]
  | write =>
    have nobody : mutex.writer = false ∧ mutex.readers = 0 := by
      simpa [RWMutex.admits] using admitted
    rw [nobody.1] at writer
    constructor
    · simpa [RWMutex.acquire, List.count_set bound, here] using readers
    · simp [RWMutex.acquire, List.count_set bound, here, ← writer]
    · simp [RWMutex.acquire, nobody.2]

theorem release (accounts : mutex.Accounts holds) {i : Nat} {mode : Mode}
    (held : holds[i]? = some (some mode)) :
    (mutex.release mode).Accounts (holds.set i none) := by
  obtain ⟨bound, here⟩ := List.getElem?_eq_some_iff.mp held
  have readers := accounts.readers
  have writer := accounts.writer
  have exclusive := accounts.exclusive
  cases mode with
  | read =>
    constructor
    · simp [RWMutex.release, List.count_set bound, here, readers]
    · simpa [RWMutex.release, List.count_set bound, here] using writer
    · intro writing
      simp [RWMutex.release, exclusive writing]
  | write =>
    constructor
    · simpa [RWMutex.release, List.count_set bound, here] using readers
    · have one := Bool.toNat_le mutex.writer
      simp [RWMutex.release, List.count_set bound, here]
      omega
    · simp [RWMutex.release]

end Accounts

end RWMutex

/-- A call as the sequence of its steps: it takes and releases the lock, and works on the
shared state in between. -/
inductive Program (Shared : Type u) (α : Type v) where
  | ret (value : α)
  | lock (mode : Mode) (next : Program Shared α)
  | unlock (mode : Mode) (next : Program Shared α)
  | work (update : Shared → Shared) (next : Shared → Program Shared α)

namespace Program

variable {Shared : Type u} {α : Type v} {β : Type w}

def bind : Program Shared α → (α → Program Shared β) → Program Shared β
  | ret value, rest => rest value
  | lock mode next, rest => lock mode (next.bind rest)
  | unlock mode next, rest => unlock mode (next.bind rest)
  | work update next, rest => work update fun shared => (next shared).bind rest

def finished : Program Shared α → Bool
  | ret _ => true
  | _ => false

/-- The next step asks for a lock that is not to be had. -/
def blocked (mutex : RWMutex) : Program Shared α → Bool
  | lock mode _ => !mutex.admits mode
  | _ => false

/-- Runs a call while nobody else uses the lock: what it leaves behind, and what it returns unless
it waits for ever. -/
def alone : Program Shared α → RWMutex → Shared → (RWMutex × Shared) × Option α
  | ret value, mutex, shared => ((mutex, shared), some value)
  | lock mode next, mutex, shared =>
    if mutex.admits mode then next.alone (mutex.acquire mode) shared else ((mutex, shared), none)
  | unlock mode next, mutex, shared => next.alone (mutex.release mode) shared
  | work update next, mutex, shared => (next shared).alone mutex (update shared)

/-- From what it holds on, the call never asks for the lock while it holds it, and it
releases what it took. -/
inductive Flat : Option Mode → Program Shared α → Prop where
  | ret (value : α) : Flat none (ret value)
  | lock {mode : Mode} {next : Program Shared α} (flat : Flat (some mode) next) :
      Flat none (lock mode next)
  | unlock {mode : Mode} {next : Program Shared α} (flat : Flat none next) :
      Flat (some mode) (unlock mode next)
  | work {hold : Option Mode} {update : Shared → Shared} {next : Shared → Program Shared α}
      (flat : ∀ shared, Flat hold (next shared)) : Flat hold (work update next)

theorem Flat.bind {hold : Option Mode} {first : Program Shared α} (flat : Flat hold first)
    {rest : α → Program Shared β} (after : ∀ value, Flat none (rest value)) :
    Flat hold (first.bind rest) := by
  induction flat with
  | ret value => exact after value
  | lock _ ih => exact .lock ih
  | unlock _ ih => exact .unlock ih
  | work _ ih => exact .work ih

theorem Flat.runs {mode : Mode} {program : Program Shared α} (flat : Flat (some mode) program)
    (mutex : RWMutex) : program.finished = false ∧ program.blocked mutex = false := by
  cases flat <;> exact ⟨rfl, rfl⟩

end Program

/-- The lock, the state it guards and the calls that were begun. -/
structure System (Shared : Type u) (α : Type v) where
  mutex : RWMutex
  shared : Shared
  threads : List (Program Shared α)

/-- A call is begun, or the scheduler gives a call its turn. -/
inductive Event (Call : Type w) where
  | begin (call : Call)
  | turn (thread : Nat)

namespace System

variable {Shared : Type u} {α : Type v} {Call : Type w}

def start (shared : Shared) : System Shared α := ⟨.free, shared, []⟩

def replace (s : System Shared α) (i : Nat) (program : Program Shared α) : System Shared α :=
  { s with threads := s.threads.set i program }

/-- One step of a thread. A thread that is blocked or has finished stays as it is. -/
def turn (s : System Shared α) (i : Nat) : System Shared α :=
  match s.threads[i]? with
  | some (.lock mode next) =>
    if s.mutex.admits mode then { s.replace i next with mutex := s.mutex.acquire mode } else s
  | some (.unlock mode next) => { s.replace i next with mutex := s.mutex.release mode }
  | some (.work update next) => { s.replace i (next s.shared) with shared := update s.shared }
  | _ => s

def step (program : Call → Program Shared α) (s : System Shared α) :
    Event Call → System Shared α × PUnit.{1}
  | .begin call => ({ s with threads := s.threads ++ [program call] }, ⟨⟩)
  | .turn i => (s.turn i, ⟨⟩)

def machine (program : Call → Program Shared α) :
    Machine (System Shared α) (Event Call) PUnit.{1} := ⟨step program⟩

/-- There are unfinished calls, and each of them is blocked. -/
def Stuck (s : System Shared α) : Prop :=
  (∃ program ∈ s.threads, program.finished = false) ∧
    ∀ program ∈ s.threads, program.finished = false → program.blocked s.mutex = true

instance (s : System Shared α) : Decidable s.Stuck := inferInstanceAs (Decidable (_ ∧ _))

/-- Each thread is flat from what it holds on, and the lock accounts for all that. -/
def Sound (s : System Shared α) : Prop :=
  ∃ holds, s.mutex.Accounts holds ∧ List.Forall₂ Program.Flat holds s.threads

theorem Sound.not_stuck {s : System Shared α} (sound : s.Sound) : ¬ s.Stuck := by
  intro stuck
  obtain ⟨⟨waiting, member, unfinished⟩, allBlocked⟩ := stuck
  obtain ⟨holds, accounts, flat⟩ := sound
  by_cases idle : ∀ hold ∈ holds, hold = none
  · have shut := allBlocked waiting member unfinished
    cases waiting with
    | lock mode next => simp [Program.blocked, accounts.admits idle mode] at shut
    | ret value => simp [Program.blocked] at shut
    | unlock mode next => simp [Program.blocked] at shut
    | work update next => simp [Program.blocked] at shut
  · simp only [not_forall] at idle
    obtain ⟨hold, held, busy⟩ := idle
    obtain ⟨mode, rfl⟩ := Option.ne_none_iff_exists'.mp busy
    obtain ⟨i, bound, here⟩ := List.getElem_of_mem held
    have shorter : i < s.threads.length := flat.length_eq ▸ bound
    have running := flat.get bound shorter
    rw [List.get_eq_getElem, here] at running
    have runs := running.runs s.mutex
    have shut := allBlocked _ (List.getElem_mem shorter) runs.1
    exact Bool.false_ne_true (runs.2.symm.trans shut)

private theorem forall₂_set {β : Type u} {γ : Type v} {R : β → γ → Prop} {first : List β}
    {second : List γ} (related : List.Forall₂ R first second) (i : Nat) {b : β} {c : γ}
    (new : R b c) : List.Forall₂ R (first.set i b) (second.set i c) := by
  induction related generalizing i with
  | nil => exact .nil
  | cons head tail ih =>
    cases i with
    | zero => exact .cons new tail
    | succ i => exact .cons head (ih i)

private theorem forall₂_getElem? {β : Type u} {γ : Type v} {R : β → γ → Prop} {first : List β}
    {second : List γ} (related : List.Forall₂ R first second) {i : Nat} {c : γ}
    (here : second[i]? = some c) : ∃ b, first[i]? = some b ∧ R b c := by
  induction related generalizing i with
  | nil => simp at here
  | cons head tail ih =>
    cases i with
    | zero =>
      obtain rfl : _ = c := by simpa using here
      exact ⟨_, rfl, head⟩
    | succ i => exact ih (by simpa using here)

theorem Sound.begin {s : System Shared α} (sound : s.Sound) {program : Program Shared α}
    (flat : program.Flat none) : ({ s with threads := s.threads ++ [program] }).Sound := by
  obtain ⟨holds, accounts, all⟩ := sound
  exact ⟨holds ++ [none], accounts.add, List.rel_append all (.cons flat .nil)⟩

theorem Sound.turn {s : System Shared α} (sound : s.Sound) (i : Nat) : (s.turn i).Sound := by
  obtain ⟨holds, accounts, all⟩ := sound
  have unchanged : s.Sound := ⟨holds, accounts, all⟩
  unfold System.turn
  cases here : s.threads[i]? with
  | none => exact unchanged
  | some program =>
    obtain ⟨hold, held, flat⟩ := forall₂_getElem? all here
    cases flat with
    | ret value => exact unchanged
    | @lock mode next flat =>
      by_cases admitted : s.mutex.admits mode = true
      · simp only [admitted, ↓reduceIte]
        exact ⟨holds.set i (some mode), accounts.acquire held admitted, forall₂_set all i flat⟩
      · simpa only [if_neg admitted] using unchanged
    | unlock flat => exact ⟨holds.set i none, accounts.release held, forall₂_set all i flat⟩
    | work flat =>
      have same : holds.set i hold = holds := by
        obtain ⟨bound, here⟩ := List.getElem?_eq_some_iff.mp held
        rw [← here, List.set_getElem_self]
      exact ⟨holds, accounts, same ▸ forall₂_set all i (flat s.shared)⟩

/-- When only flat calls are begun, no schedule gets stuck. -/
theorem never_stuck {program : Call → Program Shared α} {allowed : Call → Prop}
    (flat : ∀ call, allowed call → (program call).Flat none) (shared : Shared)
    {events : List (Event Call)} (begun : ∀ call, .begin call ∈ events → allowed call) :
    ¬ ((machine program).run (start shared) events).Stuck := by
  apply Sound.not_stuck
  have initially : (start shared : System Shared α).Sound :=
    ⟨[], ⟨rfl, rfl, nofun⟩, .nil⟩
  generalize (start shared : System Shared α) = s at initially
  induction events generalizing s with
  | nil => exact initially
  | cons event rest ih =>
    apply ih (fun call member => begun call (List.mem_cons_of_mem _ member))
    cases event with
    | begin call => exact initially.begin (flat call (begun call List.mem_cons_self))
    | turn i => exact initially.turn i

end System

end Locking
