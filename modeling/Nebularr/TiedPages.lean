import Mathlib.Data.List.Nodup
import Mathlib.Data.List.Perm.Subperm
import Mathlib.Tactic.Common

/-!
# Paging a query whose order may tie

A client reads a query page by page, each page a query of its own.  The order
of the query need not decide between all rows, and what it leaves open may come
out differently every time, so two pages need not be pages of one list.

Two clients are here: one that walks on as long as a page says that there is
more, and one that drains chunks until a short one, up to a cap.  Where the
order decides between all rows both read the query once through
(`walkPages_of_same`, `drainChunks_of_same`).  Where it does not, the second
still reads as many rows as there are (`length_drainChunks`), whichever they
are.

A *listing* is such a query with the items its rows are about, the order
deciding between items.  It is lossless exactly where no item has two rows
(`Listing.lossless_iff`).
-/

section Clients

variable {ρ : Type}

/-- One page: its rows, the reported total, and whether more follow. -/
structure Page (ρ : Type) where
  items : List ρ
  total : ℕ
  hasMore : Bool
deriving DecidableEq, Repr

/-- Walk by offset until a page says that it is the last.  `fetch` gets the
number of the query and the offset. -/
def walkPages (fetch : ℕ → ℕ → Page ρ) : ℕ → ℕ → ℕ → Option (List ρ)
  | 0, _, _ => none
  | fuel + 1, query, offset =>
      let page := fetch query offset
      if page.hasMore then
        (walkPages fetch fuel (query + 1) (offset + page.items.length)).map (page.items ++ ·)
      else
        some page.items

/-- Drain chunks of at most `chunk` rows until a short one or the cap.  `fetch`
gets the number of the query, the limit and the offset. -/
def drainChunks (fetch : ℕ → ℕ → ℕ → List ρ) (chunk cap : ℕ) : ℕ → ℕ → ℕ → ℕ → Option (List ρ)
  | 0, _, _, _ => none
  | fuel + 1, query, yielded, offset =>
      if yielded < cap then
        let chunkLimit := min chunk (cap - yielded)
        let rows := fetch query chunkLimit offset
        if rows.length < chunkLimit then
          some rows
        else
          (drainChunks fetch chunk cap fuel (query + 1) (yielded + rows.length)
            (offset + rows.length)).map (rows ++ ·)
      else
        some []

/-- Draining asks for one row at least and a chunk at most. -/
theorem drainChunks_congr {fetch fetch' : ℕ → ℕ → ℕ → List ρ} {chunk cap : ℕ} (hchunk : 0 < chunk)
    (h : ∀ query limit offset, 0 < limit → limit ≤ chunk →
      fetch query limit offset = fetch' query limit offset) (fuel query yielded offset : ℕ) :
    drainChunks fetch chunk cap fuel query yielded offset =
      drainChunks fetch' chunk cap fuel query yielded offset := by
  induction fuel generalizing query yielded offset with
  | zero => rfl
  | succ fuel ih =>
      simp only [drainChunks]
      by_cases hbelow : yielded < cap
      · have hrows := h query (min chunk (cap - yielded)) offset (by omega) (by omega)
        rw [if_pos hbelow, if_pos hbelow, hrows, ih]
      · rw [if_neg hbelow, if_neg hbelow]

/-- `limit … offset …` of an answer. -/
def slice (answer : List ρ) (limit offset : ℕ) : List ρ := (answer.drop offset).take limit

@[simp] theorem length_slice (answer : List ρ) (limit offset : ℕ) :
    (slice answer limit offset).length = min limit (answer.length - offset) := by
  rw [slice, List.length_take, List.length_drop]

/-- A slice and what comes after it. -/
theorem slice_append_drop (answer : List ρ) (limit offset : ℕ) :
    slice answer limit offset ++ answer.drop (offset + (slice answer limit offset).length) =
      answer.drop offset := by
  have hafter : answer.drop (offset + (slice answer limit offset).length) =
      (answer.drop offset).drop limit := by
    rw [List.drop_drop, length_slice]
    rcases Nat.le_total limit (answer.length - offset) with hfull | hshort
    · rw [Nat.min_eq_left hfull]
    · rw [List.drop_eq_nil_of_le (by omega), List.drop_eq_nil_of_le (by omega)]
  rw [hafter, slice, List.take_append_drop]

/-- The page of an answer, as a client that knows the total is told it. -/
def answerPage (answer : List ρ) (total limit offset : ℕ) : Page ρ :=
  let items := slice answer limit offset
  ⟨items, total, decide (offset + items.length < total)⟩

/-- **A walk over one answer reads it through.** -/
theorem walkPages_of_same {answers : ℕ → List ρ} {answer : List ρ} {limit : ℕ}
    (hsame : ∀ query, answers query = answer) (hlimit : 0 < limit) {fuel query offset : ℕ}
    (hfuel : answer.length - offset < fuel) :
    walkPages (fun n start => answerPage (answers n) answer.length limit start) fuel query offset =
      some (answer.drop offset) := by
  induction fuel generalizing query offset with
  | zero => omega
  | succ fuel ih =>
      have hsplit := slice_append_drop answer limit offset
      have hlength := length_slice answer limit offset
      simp only [walkPages, answerPage, hsame, decide_eq_true_eq]
      by_cases hmore : offset + (slice answer limit offset).length < answer.length
      · have hrest := @ih (query + 1) (offset + (slice answer limit offset).length) (by omega)
        simp only [answerPage, hsame] at hrest
        rw [if_pos hmore, hrest, Option.map_some, hsplit]
      · rw [if_neg hmore, ← hsplit, List.drop_eq_nil_of_le (by omega), List.append_nil]

/-- **Draining one answer reads it through**, up to the cap. -/
theorem drainChunks_of_same {answers : ℕ → List ρ} {answer : List ρ} {chunk cap : ℕ}
    (hsame : ∀ query, answers query = answer) (hchunk : 0 < chunk) (hcap : answer.length ≤ cap)
    {fuel query offset : ℕ} (hfuel : cap - offset < fuel) :
    drainChunks (fun n limit start => slice (answers n) limit start) chunk cap fuel query offset
      offset = some (answer.drop offset) := by
  induction fuel generalizing query offset with
  | zero => omega
  | succ fuel ih =>
      have hsplit := slice_append_drop answer (min chunk (cap - offset)) offset
      have hlength := length_slice answer (min chunk (cap - offset)) offset
      simp only [drainChunks, hsame]
      by_cases hbelow : offset < cap
      · rw [if_pos hbelow]
        by_cases hshort : (slice answer (min chunk (cap - offset)) offset).length <
            min chunk (cap - offset)
        · rw [if_pos hshort, ← hsplit, List.drop_eq_nil_of_le (by omega), List.append_nil]
        · have hrest := @ih (query + 1)
            (offset + (slice answer (min chunk (cap - offset)) offset).length) (by omega)
          simp only [hsame] at hrest
          rw [if_neg hshort, hrest, Option.map_some, hsplit]
      · rw [if_neg hbelow, List.drop_eq_nil_of_le (by omega)]

/-- **Whatever the answers, draining reads as many rows as they have.** -/
theorem length_drainChunks {answers : ℕ → List ρ} {count chunk cap : ℕ}
    (hcount : ∀ query, (answers query).length = count) (hcap : count ≤ cap)
    {fuel query offset : ℕ} (hoffset : offset ≤ count) {out : List ρ}
    (hout : drainChunks (fun n limit start => slice (answers n) limit start) chunk cap fuel query
      offset offset = some out) : offset + out.length = count := by
  induction fuel generalizing query offset out with
  | zero => cases hout
  | succ fuel ih =>
      have hlength := length_slice (answers query) (min chunk (cap - offset)) offset
      rw [hcount] at hlength
      simp only [drainChunks] at hout
      by_cases hbelow : offset < cap
      · rw [if_pos hbelow] at hout
        by_cases hshort : (slice (answers query) (min chunk (cap - offset)) offset).length <
            min chunk (cap - offset)
        · rw [if_pos hshort] at hout
          obtain rfl := Option.some.inj hout
          omega
        · rw [if_neg hshort] at hout
          obtain ⟨rest, hrest, rfl⟩ := Option.map_eq_some_iff.mp hout
          have hafter := ih (by omega) hrest
          rw [List.length_append]
          omega
      · rw [if_neg hbelow] at hout
        obtain rfl := Option.some.inj hout
        rw [List.length_nil]
        omega

end Clients

section Orders

variable {ρ : Type}

/-- An answer to a query: its rows, in an order that the query asks for. -/
structure Answers (order : ρ → ρ → Ordering) (rows answer : List ρ) : Prop where
  perm : answer.Perm rows
  sorted : answer.Pairwise fun a b => (order a b).isLE = true

/-- Every query has an answer. -/
theorem exists_answers (order : ρ → ρ → Ordering) [Std.TransCmp order] (rows : List ρ) :
    ∃ answer, Answers order rows answer := by
  refine ⟨rows.mergeSort fun a b => (order a b).isLE, List.mergeSort_perm _ _, ?_⟩
  refine List.pairwise_mergeSort ?_ ?_ rows
  · intro a b c hab hbc
    exact Std.TransCmp.isLE_trans hab hbc
  · intro a b
    have hswap : order b a = (order a b).swap := Std.OrientedCmp.eq_swap
    rw [hswap]
    cases order a b <;> rfl

/-- **An order that decides between all rows has one answer.** -/
theorem Answers.unique {order : ρ → ρ → Ordering} [Std.OrientedCmp order] {rows : List ρ}
    (hties : ∀ a ∈ rows, ∀ b ∈ rows, order a b = .eq → a = b) {answer answer' : List ρ}
    (h : Answers order rows answer) (h' : Answers order rows answer') : answer = answer' := by
  refine List.Perm.eq_of_pairwise ?_ h.sorted h'.sorted (h.perm.trans h'.perm.symm)
  intro a b ha hb hab hba
  have heq := Std.OrientedCmp.isLE_antisymm hab hba
  exact hties a (h.perm.mem_iff.mp ha) b (h'.perm.mem_iff.mp hb) heq

end Orders

/-- `nulls last`. -/
def nullsLast {α : Type} (cmp : α → α → Ordering) : Option α → Option α → Ordering
  | some a, some b => cmp a b
  | some _, none => .lt
  | none, some _ => .gt
  | none, none => .eq

instance {α : Type} {cmp : α → α → Ordering} [Std.TransCmp cmp] :
    Std.TransCmp (nullsLast cmp) where
  eq_swap {a b} := by
    cases a <;> cases b <;> simp [nullsLast, ← Std.OrientedCmp.eq_swap]
  isLE_trans {a b c} hab hbc := by
    cases a <;> cases b <;> cases c <;> simp_all [nullsLast]
    exact Std.TransCmp.isLE_trans hab hbc

/-- Rows compared by a column. -/
def byColumn {α ρ : Type} (cmp : α → α → Ordering) (column : ρ → α) (a b : ρ) : Ordering :=
  cmp (column a) (column b)

instance {α ρ : Type} {cmp : α → α → Ordering} [Std.TransCmp cmp] {column : ρ → α} :
    Std.TransCmp (byColumn cmp column) where
  eq_swap {a b} := by
    have hswap : cmp (column a) (column b) = (cmp (column b) (column a)).swap :=
      Std.OrientedCmp.eq_swap
    exact hswap
  isLE_trans {a b c} hab hbc := by
    have htrans : (cmp (column a) (column c)).isLE = true := Std.TransCmp.isLE_trans hab hbc
    exact htrans

section Listings

variable {ι ρ : Type}

/-- A query with the items its rows are about: every item is in some row, and
rows that tie are about one item. -/
structure Listing (ι ρ : Type) where
  items : List ι
  rows : List ρ
  itemOf : ρ → ι
  order : ρ → ρ → Ordering
  trans : Std.TransCmp order
  nodup : items.Nodup
  mem_iff : ∀ i, i ∈ rows.map itemOf ↔ i ∈ items
  ties : ∀ a ∈ rows, ∀ b ∈ rows, order a b = .eq → itemOf a = itemOf b

namespace Listing

section Joins

variable {α : Type} {selected : List (ι × α)} {join : ι × α → List ρ} {itemOf : ρ → ι}

/-- Selected items, each with the rows it is joined into. -/
def ofJoin (selected : List (ι × α)) (join : ι × α → List ρ) (itemOf : ρ → ι)
    (order : ρ → ρ → Ordering) (trans : Std.TransCmp order)
    (hnodup : (selected.map Prod.fst).Nodup)
    (hrows : ∀ e ∈ selected, join e ≠ []) (hitem : ∀ e, ∀ row ∈ join e, itemOf row = e.1)
    (hties : ∀ a b, order a b = .eq → itemOf a = itemOf b) : Listing ι ρ where
  items := selected.map Prod.fst
  rows := selected.flatMap join
  itemOf := itemOf
  order := order
  trans := trans
  nodup := hnodup
  mem_iff i := by
    constructor
    · intro hi
      obtain ⟨row, hrow, rfl⟩ := List.mem_map.mp hi
      obtain ⟨e, he, hrow⟩ := List.mem_flatMap.mp hrow
      rw [hitem e row hrow]
      exact List.mem_map_of_mem he
    · intro hi
      obtain ⟨e, he, rfl⟩ := List.mem_map.mp hi
      obtain ⟨row, hrow⟩ := List.exists_mem_of_ne_nil _ (hrows e he)
      rw [← hitem e row hrow]
      exact List.mem_map_of_mem (List.mem_flatMap.mpr ⟨e, he, hrow⟩)
  ties a _ b _ := hties a b

/-- No item has two rows when none is joined into two. -/
theorem nodup_join_iff (hnodup : (selected.map Prod.fst).Nodup)
    (hitem : ∀ e, ∀ row ∈ join e, itemOf row = e.1) :
    ((selected.flatMap join).map itemOf).Nodup ↔ ∀ e ∈ selected, (join e).length ≤ 1 := by
  have hnames : ∀ e, (join e).map itemOf = List.replicate (join e).length e.1 := by
    intro e
    rw [List.eq_replicate_iff, List.length_map]
    refine ⟨rfl, fun i hi => ?_⟩
    obtain ⟨row, hrow, rfl⟩ := List.mem_map.mp hi
    exact hitem e row hrow
  rw [List.map_flatMap, List.nodup_flatMap]
  constructor
  · intro h e he
    have hone := h.1 e he
    rwa [hnames e, List.nodup_replicate] at hone
  · intro h
    constructor
    · intro e he
      rw [hnames e, List.nodup_replicate]
      exact h e he
    · refine (List.pairwise_map.mp hnodup).imp fun {e e'} hne i hi hi' => ?_
      simp only [hnames, List.mem_replicate] at hi hi'
      exact hne (hi.2.symm.trans hi'.2)

end Joins

variable (L : Listing ι ρ)

/-- A client has read each item once, and as many rows as it was told. -/
structure ReadsOnce (out : List ρ) (total : ℕ) : Prop where
  once : (out.map L.itemOf).Perm L.items
  counted : total = out.length

/-- Whatever the database answers, the walk and the drained chunks both end
with each item once. -/
structure Lossless (limit chunk cap : ℕ) : Prop where
  walked : ∀ answers : ℕ → List ρ, (∀ query, Answers L.order L.rows (answers query)) →
    ∃ fuel out,
      walkPages (fun n start => answerPage (answers n) L.items.length limit start) fuel 0 0 =
        some out ∧ L.ReadsOnce out L.items.length
  drained : ∀ answers : ℕ → List ρ, (∀ query, Answers L.order L.rows (answers query)) →
    ∃ fuel out, drainChunks (fun n limit start => slice (answers n) limit start) chunk cap fuel
      0 0 0 = some out ∧ L.ReadsOnce out L.items.length

variable {L} {limit chunk cap : ℕ}

theorem rows_perm_items (hone : (L.rows.map L.itemOf).Nodup) :
    (L.rows.map L.itemOf).Perm L.items :=
  (List.perm_ext_iff_of_nodup hone L.nodup).mpr L.mem_iff

theorem lossless_of_nodup (hlimit : 0 < limit) (hchunk : 0 < chunk) (hcap : L.rows.length ≤ cap)
    (hone : (L.rows.map L.itemOf).Nodup) : L.Lossless limit chunk cap := by
  have htrans := L.trans
  have hperm := rows_perm_items hone
  have hcount : L.items.length = L.rows.length := by
    rw [← hperm.length_eq, List.length_map]
  have hties : ∀ a ∈ L.rows, ∀ b ∈ L.rows, L.order a b = .eq → a = b := by
    intro a ha b hb heq
    exact List.inj_on_of_nodup_map hone ha hb (L.ties a ha b hb heq)
  have hreads : ∀ answer, Answers L.order L.rows answer → L.ReadsOnce answer L.items.length := by
    intro answer hanswer
    exact ⟨(hanswer.perm.map L.itemOf).trans hperm, hcount.trans hanswer.perm.length_eq.symm⟩
  have hsame : ∀ answers : ℕ → List ρ, (∀ query, Answers L.order L.rows (answers query)) →
      ∀ query, answers query = answers 0 :=
    fun answers hanswers query => (hanswers query).unique hties (hanswers 0)
  constructor
  · intro answers hanswers
    have hlength : L.items.length = (answers 0).length := (hreads _ (hanswers 0)).counted
    refine ⟨(answers 0).length + 1, answers 0, ?_, hreads _ (hanswers 0)⟩
    rw [hlength]
    exact walkPages_of_same (hsame answers hanswers) hlimit (by omega)
  · intro answers hanswers
    have hbelow : (answers 0).length ≤ cap := by
      rw [(hanswers 0).perm.length_eq]
      exact hcap
    exact ⟨cap + 1, answers 0,
      drainChunks_of_same (hsame answers hanswers) hchunk hbelow (by omega),
      hreads _ (hanswers 0)⟩

/-- Two rows for one item are one row too many in every order. -/
theorem nodup_of_drained (hcap : L.rows.length ≤ cap)
    (hdrained : ∀ answers : ℕ → List ρ, (∀ query, Answers L.order L.rows (answers query)) →
      ∃ fuel out, drainChunks (fun n limit start => slice (answers n) limit start) chunk cap fuel
        0 0 0 = some out ∧ L.ReadsOnce out L.items.length) :
    (L.rows.map L.itemOf).Nodup := by
  have htrans := L.trans
  obtain ⟨answer, hanswer⟩ := exists_answers L.order L.rows
  obtain ⟨fuel, out, hout, hreads⟩ := hdrained (fun _ => answer) fun _ => hanswer
  have hlength := length_drainChunks (fun _ => hanswer.perm.length_eq) hcap (Nat.zero_le _) hout
  have hcount : (L.rows.map L.itemOf).length ≤ L.items.length := by
    rw [List.length_map, hreads.counted]
    omega
  have hsub : L.items.Subperm (L.rows.map L.itemOf) :=
    List.subperm_of_subset L.nodup fun i hi => (L.mem_iff i).mpr hi
  exact (hsub.perm_of_length_le hcount).nodup_iff.mp L.nodup

/-- **A listing is lossless exactly where no item has two rows.** -/
theorem lossless_iff (hlimit : 0 < limit) (hchunk : 0 < chunk) (hcap : L.rows.length ≤ cap) :
    L.Lossless limit chunk cap ↔ (L.rows.map L.itemOf).Nodup :=
  ⟨fun h => nodup_of_drained hcap h.drained, lossless_of_nodup hlimit hchunk hcap⟩

end Listing

end Listings
