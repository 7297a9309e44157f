import Mathlib.Data.List.TakeDrop

/-!
# Walking pages up to a cap

A list is served page by page.  The walk keeps records as long as they pass a
test, and stops at the first that does not, at a short page, at an empty one,
at a reply that is no page, or after a number of pages.  The test may itself
fail, and so may a request.

Over an honest server the walk is one scan of the list cut off at the cap
(`pagedWalk_eq`): what passes the test before the first record that does not
is found, but nothing beyond the cap is, whatever it is.
-/

section Scan

variable {ε α : Type} {keep : α → Except ε Bool}

/-- The records before the first one that does not pass, and whether there was
such a one. -/
def scanKept (keep : α → Except ε Bool) : List α → Except ε (List α × Bool)
  | [] => .ok ([], false)
  | x :: rest =>
      match keep x with
      | .error e => .error e
      | .ok false => .ok ([], true)
      | .ok true =>
          match scanKept keep rest with
          | .error e => .error e
          | .ok (kept, cut) => .ok (x :: kept, cut)

/-- The scan of a longer list, once the record `x` has passed. -/
private theorem scanKept_cons {x : α} {l : List α} (hx : keep x = .ok true) :
    scanKept keep (x :: l) = (scanKept keep l).map fun found => (x :: found.1, found.2) := by
  rw [scanKept, hx]
  cases scanKept keep l <;> rfl

/-- A scan that is not cut reads the whole list. -/
theorem scanKept_whole {l kept : List α} :
    scanKept keep l = .ok (kept, false) → kept = l := by
  induction l generalizing kept with
  | nil =>
      intro h
      cases h
      rfl
  | cons x rest ih =>
      intro h
      rcases hx : keep x with e | (_ | _)
      · simp [scanKept, hx] at h
      · simp [scanKept, hx] at h
      · rw [scanKept_cons hx] at h
        rcases hrest : scanKept keep rest with e | ⟨more, cut⟩
        · simp [hrest, Except.map] at h
        · simp only [hrest, Except.map, Except.ok.injEq, Prod.mk.injEq] at h
          obtain ⟨rfl, rfl⟩ := h
          rw [ih hrest]

/-- What is kept has passed. -/
theorem passed_of_mem_scanKept {l kept : List α} {cut : Bool}
    (h : scanKept keep l = .ok (kept, cut)) : ∀ x ∈ kept, keep x = .ok true := by
  induction l generalizing kept cut with
  | nil =>
      cases h
      exact fun x hx => nomatch hx
  | cons a rest ih =>
      rcases ha : keep a with e | (_ | _)
      · simp [scanKept, ha] at h
      · simp only [scanKept, ha, Except.ok.injEq, Prod.mk.injEq] at h
        obtain ⟨rfl, rfl⟩ := h
        exact fun x hx => nomatch hx
      · rw [scanKept_cons ha] at h
        rcases hrest : scanKept keep rest with e | ⟨more, cut'⟩
        · simp [hrest, Except.map] at h
        · simp only [hrest, Except.map, Except.ok.injEq, Prod.mk.injEq] at h
          obtain ⟨rfl, rfl⟩ := h
          intro x hx
          rcases List.mem_cons.mp hx with rfl | hx
          · exact ha
          · exact ih hrest x hx

/-- **What the scan keeps**: records of the list, and of these each one before
which none was refused and which is not refused itself. -/
theorem mem_scanKept {l kept : List α} {cut : Bool} (h : scanKept keep l = .ok (kept, cut)) :
    (∀ x ∈ kept, x ∈ l) ∧
      ∀ pre x post, l = pre ++ x :: post → (∀ y ∈ pre, keep y ≠ .ok false) →
        keep x ≠ .ok false → x ∈ kept := by
  induction l generalizing kept cut with
  | nil =>
      cases h
      exact ⟨fun x hx => hx, fun pre x post hl => absurd hl (by simp)⟩
  | cons a rest ih =>
      rcases ha : keep a with e | (_ | _)
      · simp [scanKept, ha] at h
      · simp only [scanKept, ha, Except.ok.injEq, Prod.mk.injEq] at h
        obtain ⟨rfl, rfl⟩ := h
        refine ⟨fun x hx => (nomatch hx), fun pre x post hl hpre hx => ?_⟩
        rcases pre with _ | ⟨b, pre⟩
        · obtain ⟨rfl, -⟩ := List.cons.inj hl
          exact absurd ha hx
        · obtain ⟨rfl, -⟩ := List.cons.inj hl
          exact absurd ha (hpre a List.mem_cons_self)
      · rw [scanKept_cons ha] at h
        rcases hrest : scanKept keep rest with e | ⟨more, cut'⟩
        · simp [hrest, Except.map] at h
        · simp only [hrest, Except.map, Except.ok.injEq, Prod.mk.injEq] at h
          obtain ⟨rfl, rfl⟩ := h
          obtain ⟨hsub, hall⟩ := ih hrest
          refine ⟨?_, fun pre x post hl hpre hx => ?_⟩
          · intro x hx
            rcases List.mem_cons.mp hx with rfl | hx
            · exact List.mem_cons_self
            · exact List.mem_cons_of_mem _ (hsub x hx)
          · rcases pre with _ | ⟨b, pre⟩
            · obtain ⟨rfl, -⟩ := List.cons.inj hl
              exact List.mem_cons_self
            · obtain ⟨rfl, htail⟩ := List.cons.inj hl
              exact List.mem_cons_of_mem _
                (hall pre x post htail (fun y hy => hpre y (List.mem_cons_of_mem _ hy)) hx)

/-- A cut scan does not look further. -/
theorem scanKept_append_of_cut {l l' kept : List α} (h : scanKept keep l = .ok (kept, true)) :
    scanKept keep (l ++ l') = .ok (kept, true) := by
  induction l generalizing kept with
  | nil => cases h
  | cons x rest ih =>
      rcases hx : keep x with e | (_ | _)
      · simp [scanKept, hx] at h
      · simpa [scanKept, hx] using h
      · rw [scanKept_cons hx] at h
        rw [List.cons_append, scanKept_cons hx]
        rcases hrest : scanKept keep rest with e | ⟨more, cut⟩
        · simp [hrest, Except.map] at h
        · simp only [hrest, Except.map, Except.ok.injEq, Prod.mk.injEq] at h
          obtain ⟨rfl, rfl⟩ := h
          rw [ih hrest]
          rfl

/-- A scan that is not cut goes on. -/
theorem scanKept_append_of_whole {l l' : List α} (h : scanKept keep l = .ok (l, false)) :
    scanKept keep (l ++ l') = (scanKept keep l').map fun found => (l ++ found.1, found.2) := by
  induction l with
  | nil =>
      rw [List.nil_append]
      cases scanKept keep l' <;> rfl
  | cons x rest ih =>
      rcases hx : keep x with e | (_ | _)
      · simp [scanKept, hx] at h
      · simp [scanKept, hx] at h
      · rw [scanKept_cons hx] at h
        rw [List.cons_append, scanKept_cons hx]
        rcases hrest : scanKept keep rest with e | ⟨more, cut⟩
        · simp [hrest, Except.map] at h
        · simp only [hrest, Except.map, Except.ok.injEq, Prod.mk.injEq, List.cons.injEq,
            true_and] at h
          obtain ⟨rfl, rfl⟩ := h
          rw [ih hrest]
          cases scanKept keep l' <;> rfl

/-- A test that does not fail lets the scan through. -/
theorem scanKept_isOk {l : List α} (hkeep : ∀ x ∈ l, ∃ passes, keep x = .ok passes) :
    ∃ found, scanKept keep l = .ok found := by
  induction l with
  | nil => exact ⟨_, rfl⟩
  | cons x rest ih =>
      obtain ⟨passes, hx⟩ := hkeep x List.mem_cons_self
      obtain ⟨found, hrest⟩ := ih fun y hy => hkeep y (List.mem_cons_of_mem _ hy)
      cases passes with
      | false => exact ⟨([], true), by simp [scanKept, hx]⟩
      | true => exact ⟨_, by rw [scanKept_cons hx, hrest]; rfl⟩

end Scan

section PagedWalk

variable {ε α : Type} (fetch : ℕ → Except ε (Option (List α))) (keep : α → Except ε Bool)
  (onePage : Bool) (size : ℕ)

/-- The walk, with `cap` pages to go; `none` is a reply that is no page. -/
def pagedWalk : (cap page : ℕ) → List α → Except ε (List α)
  | 0, _, seen => .ok seen
  | cap + 1, page, seen =>
      match fetch page with
      | .error e => .error e
      | .ok none => .ok seen
      | .ok (some []) => .ok seen
      | .ok (some (first :: rest)) =>
          match scanKept keep (first :: rest) with
          | .error e => .error e
          | .ok (kept, true) => .ok (seen ++ kept)
          | .ok (kept, false) =>
              if onePage then .ok (seen ++ kept)
              else if (first :: rest).length < size then .ok (seen ++ kept)
              else pagedWalk cap (page + 1) (seen ++ kept)

/-- Page `page`, counted from 1, of a list. -/
def pageOf (l : List α) (page : ℕ) : List α := (l.drop ((page - 1) * size)).take size

variable {fetch keep size}

/-- The pages still to be walked are the next one and the ones after it. -/
private theorem take_pages (l : List α) (cap page : ℕ) (hpage : 0 < page) :
    (l.drop ((page - 1) * size)).take ((cap + 1) * size) =
      pageOf size l page ++ (l.drop ((page + 1 - 1) * size)).take (cap * size) := by
  have hnext : (l.drop ((page - 1) * size)).drop size = l.drop ((page + 1 - 1) * size) := by
    obtain ⟨n, rfl⟩ : ∃ n, page = n + 1 := ⟨page - 1, by omega⟩
    rw [List.drop_drop]
    congr 1
    simp [Nat.succ_mul]
  rw [Nat.succ_mul, Nat.add_comm, List.take_add, hnext, pageOf]

/-- Nothing stands behind a page that is not full. -/
private theorem drop_of_short {l : List α} {page : ℕ} (hpage : 0 < page)
    (hshort : (pageOf size l page).length < size) : l.drop ((page + 1 - 1) * size) = [] := by
  obtain ⟨n, rfl⟩ : ∃ n, page = n + 1 := ⟨page - 1, by omega⟩
  rw [pageOf, List.length_take, List.length_drop] at hshort
  apply List.drop_eq_nil_of_le
  simp only [Nat.add_sub_cancel, Nat.succ_mul] at hshort ⊢
  omega

/-- What the walk returns has passed, whoever serves the pages. -/
theorem passed_of_mem_pagedWalk :
    ∀ (cap page : ℕ) (seen events : List α), (∀ x ∈ seen, keep x = .ok true) →
      pagedWalk fetch keep onePage size cap page seen = .ok events →
      ∀ x ∈ events, keep x = .ok true := by
  intro cap
  induction cap with
  | zero =>
      intro page seen events hseen h
      obtain rfl := Except.ok.inj h
      exact hseen
  | succ cap ih =>
      intro page seen events hseen h
      unfold pagedWalk at h
      rcases hreply : fetch page with e | (_ | (_ | ⟨first, rest⟩))
      · simp [hreply] at h
      · simp only [hreply, Except.ok.injEq] at h
        exact h ▸ hseen
      · simp only [hreply, Except.ok.injEq] at h
        exact h ▸ hseen
      · rcases hscan : scanKept keep (first :: rest) with e | ⟨kept, cut⟩
        · simp [hreply, hscan] at h
        · have hnext : ∀ x ∈ seen ++ kept, keep x = .ok true := by
            intro x hx
            rcases List.mem_append.mp hx with hx | hx
            · exact hseen x hx
            · exact passed_of_mem_scanKept hscan x hx
          simp only [hreply, hscan] at h
          cases cut with
          | true => exact Except.ok.inj h ▸ hnext
          | false =>
              simp only at h
              split at h
              · exact Except.ok.inj h ▸ hnext
              · split at h
                · exact Except.ok.inj h ▸ hnext
                · exact ih (page + 1) _ events hnext h

/-- **The walk is one scan of the list up to the cap**, when each page is
served as it is or fails. -/
theorem pagedWalk_eq {l : List α} (hsize : 0 < size)
    (hfetch : ∀ page reply, fetch page = .ok reply → reply = some (pageOf size l page)) :
    ∀ (cap page : ℕ) (seen events : List α), 0 < page →
      pagedWalk fetch keep false size cap page seen = .ok events →
      ∃ kept cut, scanKept keep ((l.drop ((page - 1) * size)).take (cap * size)) = .ok (kept, cut) ∧
        events = seen ++ kept := by
  intro cap
  induction cap with
  | zero =>
      intro page seen events _ h
      obtain rfl := Except.ok.inj h
      exact ⟨[], false, by simp [scanKept], by simp⟩
  | succ cap ih =>
      intro page seen events hpage h
      rw [take_pages l cap page hpage]
      unfold pagedWalk at h
      cases hreply : fetch page with
      | error e => simp [hreply] at h
      | ok reply =>
          obtain rfl := hfetch page reply hreply
          simp only [hreply] at h
          cases hrecords : pageOf size l page with
          | nil =>
              rw [hrecords] at h
              obtain rfl := Except.ok.inj h
              rw [drop_of_short hpage (by rw [hrecords]; exact hsize)]
              exact ⟨[], false, by simp [scanKept], by simp⟩
          | cons first rest =>
              simp only [hrecords] at h
              rcases hscan : scanKept keep (first :: rest) with e | ⟨kept, cut⟩
              · simp [hscan] at h
              · cases cut with
                | true =>
                    simp only [hscan] at h
                    obtain rfl := Except.ok.inj h
                    exact ⟨kept, true, scanKept_append_of_cut hscan, rfl⟩
                | false =>
                    obtain rfl := scanKept_whole hscan
                    simp only [hscan] at h
                    rw [if_neg Bool.false_ne_true] at h
                    rw [scanKept_append_of_whole hscan]
                    split at h
                    · next hshort =>
                        obtain rfl := Except.ok.inj h
                        rw [← hrecords] at hshort
                        rw [drop_of_short hpage hshort]
                        exact ⟨first :: rest, false, by simp [scanKept, Except.map], rfl⟩
                    · obtain ⟨more, cut, hmore, rfl⟩ := ih (page + 1) _ events (Nat.succ_pos _) h
                      rw [hmore]
                      exact ⟨first :: rest ++ more, cut, rfl, List.append_assoc ..⟩

/-- A server that never fails lets the walk through, when the test does not
fail on what it serves. -/
theorem pagedWalk_isOk (hfetch : ∀ page, ∃ reply, fetch page = .ok reply)
    (hkeep : ∀ page records, fetch page = .ok (some records) →
      ∀ x ∈ records, ∃ passes, keep x = .ok passes) :
    ∀ (cap page : ℕ) (seen : List α), ∃ events,
      pagedWalk fetch keep onePage size cap page seen = .ok events := by
  intro cap
  induction cap with
  | zero => exact fun page seen => ⟨seen, rfl⟩
  | succ cap ih =>
      intro page seen
      obtain ⟨reply, hreply⟩ := hfetch page
      unfold pagedWalk
      rcases reply with _ | (_ | ⟨first, rest⟩)
      · exact ⟨seen, by simp [hreply]⟩
      · exact ⟨seen, by simp [hreply]⟩
      · obtain ⟨⟨kept, cut⟩, hscan⟩ := scanKept_isOk (hkeep page _ hreply)
        simp only [hreply, hscan]
        cases cut with
        | true => exact ⟨_, rfl⟩
        | false =>
            simp only
            split
            · exact ⟨_, rfl⟩
            · split
              · exact ⟨_, rfl⟩
              · exact ih _ _

end PagedWalk
