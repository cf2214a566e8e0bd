import Mathlib.Data.Finset.Card
import Mathlib.Logic.Relation

/-! Depth-first reachability in which one visited list is shared by the whole
search: a node entered by an earlier sibling is never entered again. The
search carries fuel; any fuel above the number of nodes with successors makes
it exact (`search_eq_true_iff`). -/

namespace Xinim.Graph
open Relation

variable {α : Type*}

/-- Visit `nodes` in order, threading the visited list, and stop at the first
visit that reports a hit. -/
def firstHit (visit : α → List α → Bool × List α) : List α → List α → Bool × List α
  | [], visited => (false, visited)
  | next :: rest, visited =>
    match visit next visited with
    | (true, v) => (true, v)
    | (false, v) => firstHit visit rest v

def Adj (succ : α → List α) (x y : α) : Prop := y ∈ succ x

/-- What a search that found nothing leaves behind: the visited list only grew,
the target is still outside it, and every node it added has all its
successors inside it. -/
def Explored (succ : α → List α) (target : α) (before after : List α) : Prop :=
  before ⊆ after ∧ target ∉ after ∧ ∀ y ∈ after, y ∉ before → ∀ z ∈ succ y, z ∈ after

variable {succ : α → List α} {target : α}

theorem Explored.refl {visited : List α} (h : target ∉ visited) :
    Explored succ target visited visited :=
  ⟨List.Subset.refl _, h, fun _ hy hn => absurd hy hn⟩

theorem Explored.trans {u v w : List α} (huv : Explored succ target u v)
    (hvw : Explored succ target v w) : Explored succ target u w := by
  refine ⟨List.Subset.trans huv.1 hvw.1, hvw.2.1, fun y hy hu z hz => ?_⟩
  by_cases hv : y ∈ v
  · exact hvw.1 (huv.2.2 y hv hu z hz)
  · exact hvw.2.2 y hy hv z hz

theorem firstHit_true {visit : α → List α → Bool × List α} :
    ∀ {nodes visited : List α}, (firstHit visit nodes visited).1 = true →
      ∃ y ∈ nodes, ∃ w, (visit y w).1 = true
  | [], _, h => by simp [firstHit] at h
  | next :: rest, visited, h => by
    rcases hv : visit next visited with ⟨_ | _, v⟩
    · simp only [firstHit, hv] at h
      obtain ⟨y, hy, w, hw⟩ := firstHit_true h
      exact ⟨y, List.mem_cons_of_mem _ hy, w, hw⟩
    · exact ⟨next, List.mem_cons_self, visited, by simp [hv]⟩

theorem firstHit_false {visit : α → List α → Bool × List α} (Ok : List α → Prop)
    (hvisit : ∀ x w w', visit x w = (false, w') → Ok w →
      Explored succ target w w' ∧ x ∈ w')
    (hok : ∀ w w', Ok w → Explored succ target w w' → Ok w') :
    ∀ {nodes visited result : List α}, firstHit visit nodes visited = (false, result) →
      Ok visited → target ∉ visited →
      Explored succ target visited result ∧ ∀ y ∈ nodes, y ∈ result
  | [], visited, result, h, _, ht => by
    simp only [firstHit, Prod.mk.injEq, true_and] at h
    subst h
    exact ⟨Explored.refl ht, by simp⟩
  | next :: rest, visited, result, h, hv, _ => by
    rcases hnext : visit next visited with ⟨_ | _, v⟩
    · simp only [firstHit, hnext] at h
      obtain ⟨explored, mem⟩ := hvisit next visited v hnext hv
      obtain ⟨explored', mems⟩ :=
        firstHit_false Ok hvisit hok h (hok _ _ hv explored) explored.2.1
      refine ⟨explored.trans explored', fun y hy => ?_⟩
      rcases List.mem_cons.mp hy with rfl | hy
      · exact explored'.1 mem
      · exact mems y hy
    · simp [firstHit, hnext] at h

variable [DecidableEq α]

def search (succ : α → List α) (target : α) : ℕ → α → List α → Bool × List α
  | 0, _, visited => (false, visited)
  | fuel + 1, node, visited =>
    if node = target then (true, visited)
    else if node ∈ visited then (false, visited)
    else firstHit (search succ target fuel) (succ node) (node :: visited)

def unvisited (dom visited : List α) : ℕ := (dom.toFinset \ visited.toFinset).card

theorem unvisited_anti (dom : List α) {v w : List α} (h : v ⊆ w) :
    unvisited dom w ≤ unvisited dom v := by
  apply Finset.card_le_card
  intro x hx
  simp only [Finset.mem_sdiff, List.mem_toFinset] at hx ⊢
  exact ⟨hx.1, fun hv => hx.2 (h hv)⟩

theorem unvisited_cons_lt {dom visited : List α} {x : α} (hx : x ∈ dom) (hv : x ∉ visited) :
    unvisited dom (x :: visited) < unvisited dom visited := by
  have mem : x ∈ dom.toFinset \ visited.toFinset := by simp [hx, hv]
  rw [unvisited, List.toFinset_cons, Finset.sdiff_insert, Finset.card_erase_of_mem mem]
  exact Nat.sub_lt (Finset.card_pos.mpr ⟨x, mem⟩) Nat.one_pos

theorem unvisited_nil_le (dom : List α) : unvisited dom [] ≤ dom.length := by
  simpa [unvisited] using List.toFinset_card_le dom

theorem search_sound :
    ∀ {fuel : ℕ} {node : α} {visited : List α},
      (search succ target fuel node visited).1 = true → ReflTransGen (Adj succ) node target
  | 0, _, _, h => by simp [search] at h
  | fuel + 1, node, visited, h => by
    by_cases hn : node = target
    · exact hn ▸ ReflTransGen.refl
    by_cases hv : node ∈ visited
    · simp [search, hn, hv] at h
    simp only [search, hn, hv, if_false] at h
    obtain ⟨y, hy, w, hw⟩ := firstHit_true h
    exact ReflTransGen.head hy (search_sound hw)

section complete

variable {dom : List α} (hdom : ∀ x, succ x ≠ [] → x ∈ dom)
include hdom

theorem search_false :
    ∀ {fuel : ℕ} {node : α} {visited result : List α},
      search succ target fuel node visited = (false, result) → target ∉ visited →
      unvisited dom visited < fuel → Explored succ target visited result ∧ node ∈ result
  | 0, _, _, _, _, _, hfuel => absurd hfuel (Nat.not_lt_zero _)
  | fuel + 1, node, visited, result, h, ht, hfuel => by
    by_cases hn : node = target
    · simp [search, hn] at h
    by_cases hv : node ∈ visited
    · simp only [search, hn, hv, if_false, if_true, Prod.mk.injEq, true_and] at h
      subst h
      exact ⟨Explored.refl ht, hv⟩
    simp only [search, hn, hv, if_false] at h
    have ht' : target ∉ node :: visited := by simp [ht, Ne.symm hn]
    by_cases hs : succ node = []
    · rw [hs] at h
      simp only [firstHit, Prod.mk.injEq, true_and] at h
      subst h
      refine ⟨⟨List.subset_cons_self _ _, ht', fun y hy hy' z hz => ?_⟩, List.mem_cons_self⟩
      have : y = node := by simpa [hy'] using hy
      simp [this, hs] at hz
    have hlt : unvisited dom (node :: visited) < fuel :=
      lt_of_lt_of_le (unvisited_cons_lt (hdom node hs) hv) (Nat.lt_succ_iff.mp hfuel)
    obtain ⟨explored, mems⟩ := firstHit_false (fun w => target ∉ w ∧ unvisited dom w < fuel)
      (fun x w w' hw ok => search_false hw ok.1 ok.2)
      (fun w w' ok e => ⟨e.2.1, lt_of_le_of_lt (unvisited_anti dom e.1) ok.2⟩)
      h ⟨ht', hlt⟩ ht'
    refine ⟨⟨List.Subset.trans (List.subset_cons_self _ _) explored.1, explored.2.1,
      fun y hy hyv z hz => ?_⟩, explored.1 List.mem_cons_self⟩
    by_cases hyn : y = node
    · exact mems z (hyn ▸ hz)
    · exact explored.2.2 y hy (by simp [hyn, hyv]) z hz

theorem search_complete {fuel : ℕ} {source : α} (hfuel : dom.length < fuel)
    (h : ReflTransGen (Adj succ) source target) :
    (search succ target fuel source []).1 = true := by
  rcases hres : search succ target fuel source [] with ⟨_ | _, result⟩
  · exfalso
    obtain ⟨⟨-, hout, closed⟩, hsrc⟩ :=
      search_false hdom hres (List.not_mem_nil) (lt_of_le_of_lt (unvisited_nil_le dom) hfuel)
    have inside : ∀ y, ReflTransGen (Adj succ) source y → y ∈ result := by
      intro y hy
      induction hy with
      | refl => exact hsrc
      | tail _ step ih => exact closed _ ih List.not_mem_nil _ step
    exact hout (inside target h)
  · rfl

theorem search_eq_true_iff {fuel : ℕ} {source : α} (hfuel : dom.length < fuel) :
    (search succ target fuel source []).1 = true ↔ ReflTransGen (Adj succ) source target :=
  ⟨search_sound, search_complete hdom hfuel⟩

end complete

end Xinim.Graph
