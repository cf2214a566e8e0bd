import Xinim.Data.Intrusive

/-! Hash chains: singly linked lists threaded through their nodes by one
`next` link each, with an array of bucket heads. `push` is the insertion at a
bucket's head; `erase` is the pointer-to-pointer loop that finds the slot
holding a node and overwrites it with the node's successor. `Holds` says which
list each bucket's chain reads as. -/

namespace Chains

structure Buckets (κ ι : Type) where
  heads : κ → Option ι
  next : ι → Option ι

variable {κ ι : Type}

/-- From `start` along `next` the nodes of `l` are met, then `fwd`. -/
def Chain (next : ι → Option ι) : Option ι → List ι → Option ι → Prop
  | start, [], fwd => start = fwd
  | start, x :: rest, fwd => start = some x ∧ Chain next (next x) rest fwd

instance decidableChain [DecidableEq ι] (next : ι → Option ι) :
    (start : Option ι) → (l : List ι) → (fwd : Option ι) → Decidable (Chain next start l fwd)
  | start, [], fwd => inferInstanceAs (Decidable (start = fwd))
  | start, x :: rest, fwd =>
    haveI := decidableChain next (next x) rest fwd
    inferInstanceAs (Decidable (start = some x ∧ Chain next (next x) rest fwd))

inductive Slot (κ ι : Type)
  | head (k : κ)
  | link (y : ι)

namespace Buckets

variable [DecidableEq κ] [DecidableEq ι]

def read (c : Buckets κ ι) : Slot κ ι → Option ι
  | .head k => c.heads k
  | .link y => c.next y

def write (c : Buckets κ ι) : Slot κ ι → Option ι → Buckets κ ι
  | .head k, v => { c with heads := Function.update c.heads k v }
  | .link y, v => { c with next := Function.update c.next y v }

def push (c : Buckets κ ι) (k : κ) (x : ι) : Buckets κ ι :=
  ⟨Function.update c.heads k (some x), Function.update c.next x (c.heads k)⟩

def seek (c : Buckets κ ι) (x : ι) : ℕ → Slot κ ι → Slot κ ι
  | 0, s => s
  | fuel + 1, s =>
    match c.read s with
    | some y => if y = x then s else c.seek x fuel (.link y)
    | none => s

/-- Unlink `x` from the chain of bucket `k` where it is found there, then
clear its own link. -/
def erase (c : Buckets κ ι) (k : κ) (x : ι) (fuel : ℕ) : Buckets κ ι :=
  let slot := c.seek x fuel (.head k)
  let c := if c.read slot = some x then c.write slot (c.next x) else c
  { c with next := Function.update c.next x none }

/-- Bucket `k` chains the list `lists k`; no node is in two places. -/
structure Holds (c : Buckets κ ι) (lists : κ → List ι) : Prop where
  chain : ∀ k, Chain c.next (c.heads k) (lists k) none
  nodup : ∀ k, (lists k).Nodup
  apart : ∀ k k' x, x ∈ lists k → x ∈ lists k' → k = k'

end Buckets

section Chain

variable {next next' : ι → Option ι} {start fwd : Option ι} {x : ι} {l l₁ l₂ : List ι}

theorem chain_nil : Chain next start [] fwd ↔ start = fwd := Iff.rfl

theorem chain_cons : Chain next start (x :: l) fwd ↔ start = some x ∧ Chain next (next x) l fwd := Iff.rfl

theorem Chain.start_eq (h : Chain next start l fwd) : start = l.head?.or fwd := by
  cases l with
  | nil => exact h
  | cons x l => exact h.1

theorem chain_append : Chain next start (l₁ ++ l₂) fwd ↔
    Chain next start l₁ (l₂.head?.or fwd) ∧ Chain next (l₂.head?.or fwd) l₂ fwd := by
  induction l₁ generalizing start with
  | nil =>
    constructor
    · intro h
      exact ⟨h.start_eq, h.start_eq ▸ h⟩
    · rintro ⟨rfl, h⟩
      exact h
  | cons y l₁ ih =>
    rw [List.cons_append, chain_cons, chain_cons, ih, and_assoc]

theorem chain_concat : Chain next start (l ++ [x]) fwd ↔ Chain next start l (some x) ∧ next x = fwd := by
  rw [chain_append]
  simp [chain_cons, chain_nil]

theorem Chain.congr (h : Chain next start l fwd) (agree : ∀ y ∈ l, next' y = next y) :
    Chain next' start l fwd := by
  induction l generalizing start with
  | nil => exact h
  | cons y l ih =>
    refine ⟨h.1, ?_⟩
    rw [agree y List.mem_cons_self]
    exact ih h.2 fun z mem => agree z (List.mem_cons_of_mem y mem)

theorem walk_of_chain (h : Chain next start l none) {fuel : ℕ} (enough : l.length ≤ fuel) :
    Intrusive.walk next fuel start = l := by
  induction l generalizing start fuel with
  | nil =>
    rw [chain_nil.mp h]
    cases fuel <;> rfl
  | cons y l ih =>
    obtain ⟨fuel, rfl⟩ : ∃ f, fuel = f + 1 := ⟨fuel - 1, by simp at enough; omega⟩
    rw [h.1, Intrusive.walk, ih h.2 (by simpa using enough)]

end Chain

namespace Buckets

variable [DecidableEq κ] [DecidableEq ι] {c : Buckets κ ι} {x : ι} {s : Slot κ ι} {fuel : ℕ}

omit [DecidableEq κ] in
theorem seek_of_not_mem {l : List ι} (h : Chain c.next (c.read s) l none) (absent : x ∉ l)
    (enough : l.length ≤ fuel) : c.read (c.seek x fuel s) = none := by
  induction l generalizing s fuel with
  | nil =>
    cases fuel with
    | zero => exact h
    | succ fuel => simp only [seek, chain_nil.mp h]
  | cons y l ih =>
    obtain ⟨fuel, rfl⟩ : ∃ f, fuel = f + 1 := ⟨fuel - 1, by simp at enough; omega⟩
    have yx : y ≠ x := fun e => absent (e ▸ List.mem_cons_self)
    simp only [seek, h.1, yx, if_false]
    exact ih h.2 (fun mem => absent (List.mem_cons_of_mem y mem)) (by simpa using enough)

omit [DecidableEq κ] in
theorem seek_of_mem {l₁ l₂ : List ι} (h : Chain c.next (c.read s) (l₁ ++ x :: l₂) none) (first : x ∉ l₁)
    (enough : l₁.length < fuel) : c.seek x fuel s = l₁.getLast?.elim s .link := by
  induction l₁ generalizing s fuel with
  | nil =>
    obtain ⟨fuel, rfl⟩ : ∃ f, fuel = f + 1 := ⟨fuel - 1, by simp at enough; omega⟩
    simp [seek, h.1]
  | cons y l₁ ih =>
    obtain ⟨fuel, rfl⟩ : ∃ f, fuel = f + 1 := ⟨fuel - 1, by simp at enough; omega⟩
    have yx : y ≠ x := fun e => first (e ▸ List.mem_cons_self)
    simp only [seek, List.cons_append, chain_cons] at h ⊢
    simp only [h.1, yx, if_false]
    rw [ih (s := .link y) h.2 (fun mem => first (List.mem_cons_of_mem y mem)) (by simpa using enough),
      List.getLast?_cons]
    cases l₁.getLast? <;> rfl

@[simp] theorem push_heads (k : κ) : (c.push k x).heads = Function.update c.heads k (some x) := rfl

@[simp] theorem push_next (k : κ) : (c.push k x).next = Function.update c.next x (c.heads k) := rfl

theorem erase_of_not_mem {lists : κ → List ι} (h : c.Holds lists) {k : κ} (absent : x ∉ lists k)
    (enough : (lists k).length ≤ fuel) : c.erase k x fuel = { c with next := Function.update c.next x none } := by
  have missed := seek_of_not_mem (s := .head k) (h.chain k) absent enough
  simp [erase, missed]

theorem erase_of_head {lists : κ → List ι} (h : c.Holds lists) {k : κ} {l : List ι} (split : lists k = x :: l)
    (enough : (lists k).length ≤ fuel) :
    c.erase k x fuel = ⟨Function.update c.heads k (c.next x), Function.update c.next x none⟩ := by
  have chain := h.chain k
  rw [split] at chain enough
  have pos : ([] : List ι).length < fuel := by
    simp only [List.length_cons] at enough
    simp only [List.length_nil]
    omega
  have slot : c.seek x fuel (.head k) = ([] : List ι).getLast?.elim (.head k) .link :=
    seek_of_mem chain List.not_mem_nil pos
  simp only [erase, slot, List.getLast?_nil, Option.elim_none, read, chain.1, if_true, write]

theorem erase_of_link {lists : κ → List ι} (h : c.Holds lists) {k : κ} {l₁ l₂ : List ι} {p : ι}
    (split : lists k = l₁ ++ p :: x :: l₂) (enough : (lists k).length ≤ fuel) :
    c.erase k x fuel = ⟨c.heads, Function.update (Function.update c.next p (c.next x)) x none⟩ := by
  have nodup := h.nodup k
  rw [split] at nodup
  have first : x ∉ l₁ ++ [p] := by
    intro mem
    rw [List.append_cons] at nodup
    exact (List.nodup_append.mp nodup).2.2 x mem x List.mem_cons_self rfl
  have chain := h.chain k
  rw [split, List.append_cons] at chain
  rw [split] at enough
  have pos : (l₁ ++ [p]).length < fuel := by
    simp only [List.length_append, List.length_cons, List.length_nil] at enough ⊢
    omega
  have slot : c.seek x fuel (.head k) = (l₁ ++ [p]).getLast?.elim (.head k) .link :=
    seek_of_mem chain first pos
  have found : c.next p = some x := by
    have := (chain_append.mp chain).1
    exact (chain_concat.mp this).2
  simp only [erase, slot, List.getLast?_concat, Option.elim_some, read, found, if_true, write]

section Lists

variable {lists : κ → List ι} {k : κ}

omit [DecidableEq ι] in
theorem mem_update_cons {y : ι} {k' : κ} :
    y ∈ Function.update lists k (x :: lists k) k' ↔ k' = k ∧ y = x ∨ y ∈ lists k' := by
  by_cases same : k' = k
  · subst same
    simp
  · simp [same]

theorem mem_of_mem_update_erase {y : ι} {k' : κ} (mem : y ∈ Function.update lists k ((lists k).erase x) k') :
    y ∈ lists k' := by
  by_cases same : k' = k
  · subst same
    rw [Function.update_self] at mem
    exact List.mem_of_mem_erase mem
  · rwa [Function.update_of_ne same] at mem

theorem mem_update_erase_of_ne {y : ι} {k' : κ} (ne : y ≠ x) (mem : y ∈ lists k') :
    y ∈ Function.update lists k ((lists k).erase x) k' := by
  by_cases same : k' = k
  · subst same
    rw [Function.update_self]
    exact (List.mem_erase_of_ne ne).mpr mem
  · rwa [Function.update_of_ne same]

theorem not_mem_update_erase (home : ∀ k', x ∈ lists k' → k' = k) (nodup : (lists k).Nodup) (k' : κ) :
    x ∉ Function.update lists k ((lists k).erase x) k' := by
  by_cases same : k' = k
  · subst same
    rw [Function.update_self]
    exact nodup.not_mem_erase
  · rw [Function.update_of_ne same]
    exact fun mem => same (home k' mem)

theorem Holds.of_update_erase (h : c.Holds lists) {c' : Buckets κ ι}
    (chain : ∀ k', Chain c'.next (c'.heads k') (Function.update lists k ((lists k).erase x) k') none) :
    c'.Holds (Function.update lists k ((lists k).erase x)) := by
  refine ⟨chain, fun k' => ?_, fun k₁ k₂ y mem₁ mem₂ => ?_⟩
  · by_cases same : k' = k
    · subst same
      rw [Function.update_self]
      exact (h.nodup k').erase x
    · rw [Function.update_of_ne same]
      exact h.nodup k'
  · exact h.apart k₁ k₂ y (mem_of_mem_update_erase mem₁) (mem_of_mem_update_erase mem₂)

theorem Holds.push (h : c.Holds lists) (fresh : ∀ k', x ∉ lists k') :
    (c.push k x).Holds (Function.update lists k (x :: lists k)) := by
  have agree : ∀ k', ∀ y ∈ lists k', (c.push k x).next y = c.next y := by
    intro k' y mem
    have yx : y ≠ x := fun e => fresh k' (e ▸ mem)
    rw [push_next, Function.update_of_ne yx]
  refine ⟨fun k' => ?_, fun k' => ?_, fun k₁ k₂ y mem₁ mem₂ => ?_⟩
  · by_cases same : k' = k
    · subst same
      have linked : (c.push k' x).next x = c.heads k' := by rw [push_next, Function.update_self]
      rw [Function.update_self, chain_cons, linked]
      exact ⟨by rw [push_heads, Function.update_self], (h.chain k').congr (agree k')⟩
    · have head : (c.push k x).heads k' = c.heads k' := by rw [push_heads, Function.update_of_ne same]
      rw [Function.update_of_ne same, head]
      exact (h.chain k').congr (agree k')
  · by_cases same : k' = k
    · subst same
      rw [Function.update_self]
      exact List.nodup_cons.mpr ⟨fresh k', h.nodup k'⟩
    · rw [Function.update_of_ne same]
      exact h.nodup k'
  · rcases mem_update_cons.mp mem₁ with ⟨at₁, yx₁⟩ | old₁ <;>
      rcases mem_update_cons.mp mem₂ with ⟨at₂, yx₂⟩ | old₂
    · exact at₁.trans at₂.symm
    · exact absurd (yx₁ ▸ old₂) (fresh k₂)
    · exact absurd (yx₂ ▸ old₁) (fresh k₁)
    · exact h.apart k₁ k₂ y old₁ old₂

theorem Holds.erase (h : c.Holds lists) (home : ∀ k', x ∈ lists k' → k' = k) (enough : (lists k).length ≤ fuel) :
    (c.erase k x fuel).Holds (Function.update lists k ((lists k).erase x)) := by
  refine h.of_update_erase fun k' => ?_
  have other : ∀ k', k' ≠ k → ∀ y ∈ lists k', y ∉ lists k := fun k' ne y mem mem' => ne (h.apart k' k y mem mem')
  by_cases present : x ∈ lists k
  · obtain ⟨l₁, l₂, split⟩ := List.append_of_mem present
    have erased : (lists k).erase x = l₁ ++ l₂ := by
      rw [split, List.erase_append_right _ (fun mem => (List.nodup_append.mp (split ▸ h.nodup k)).2.2 x mem x
        List.mem_cons_self rfl), List.erase_cons_head]
    rcases List.eq_nil_or_concat' l₁ with rfl | ⟨l₁, p, rfl⟩
    · rw [List.nil_append] at split erased
      have chain := h.chain k
      rw [split] at chain
      rw [erase_of_head h split enough]
      dsimp only
      by_cases same : k' = k
      · subst same
        rw [Function.update_self, erased]
        simp only [Function.update_self]
        refine chain.2.congr fun y mem => ?_
        have yx : y ≠ x := by
          rintro rfl
          exact (List.nodup_cons.mp (split ▸ h.nodup k')).1 mem
        exact Function.update_of_ne yx _ _
      · rw [Function.update_of_ne same, Function.update_of_ne same]
        refine (h.chain k').congr fun y mem => ?_
        have yx : y ≠ x := by
          rintro rfl
          exact other k' same y mem present
        exact Function.update_of_ne yx _ _
    · simp only [List.append_assoc, List.singleton_append] at split erased
      rw [erase_of_link h split enough]
      dsimp only
      have nodup := h.nodup k
      rw [split] at nodup
      have pMem : p ∈ lists k := by rw [split]; simp
      by_cases same : k' = k
      · subst same
        have chain := h.chain k'
        rw [split, chain_append, chain_cons, chain_cons] at chain
        obtain ⟨left, -, -, right⟩ := chain
        have px : p ≠ x := fun e => by
          subst e
          exact (List.nodup_cons.mp (List.nodup_append.mp nodup).2.1).1 List.mem_cons_self
        have xFree : x ∉ l₂ := (List.nodup_cons.mp (List.nodup_cons.mp (List.nodup_append.mp nodup).2.1).2).1
        have pFree : p ∉ l₂ := fun mem => (List.nodup_cons.mp (List.nodup_append.mp nodup).2.1).1
          (List.mem_cons_of_mem x mem)
        have outside : ∀ y ∈ l₁, y ≠ p ∧ y ≠ x := fun y mem =>
          ⟨fun e => (List.nodup_append.mp nodup).2.2 y mem p List.mem_cons_self e,
            fun e => (List.nodup_append.mp nodup).2.2 y mem x (List.mem_cons_of_mem p List.mem_cons_self) e⟩
        have linked : c.next x = l₂.head? := by simpa using right.start_eq
        rw [Function.update_self, erased, ← List.singleton_append, ← List.append_assoc, chain_append, chain_concat]
        refine ⟨⟨left.congr fun y mem => ?_, ?_⟩, ?_⟩
        · rw [Function.update_of_ne (outside y mem).2, Function.update_of_ne (outside y mem).1]
        · simp [Function.update_of_ne px, linked]
        · rw [Option.or_none, ← linked]
          refine right.congr fun y mem => ?_
          have yx : y ≠ x := fun e => xFree (e ▸ mem)
          have yp : y ≠ p := fun e => pFree (e ▸ mem)
          rw [Function.update_of_ne yx, Function.update_of_ne yp]
      · rw [Function.update_of_ne same]
        refine (h.chain k').congr fun y mem => ?_
        have yx : y ≠ x := by
          rintro rfl
          exact other k' same y mem present
        have yp : y ≠ p := by
          rintro rfl
          exact other k' same y mem pMem
        rw [Function.update_of_ne yx, Function.update_of_ne yp]
  · rw [erase_of_not_mem h present enough, List.erase_of_not_mem present, Function.update_eq_self]
    dsimp only
    refine (h.chain k').congr fun y mem => ?_
    have yx : y ≠ x := fun e => present (home k' (e ▸ mem) ▸ e ▸ mem)
    exact Function.update_of_ne yx _ _

end Lists

end Buckets

end Chains
