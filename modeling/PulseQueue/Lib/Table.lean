import Mathlib

/-!
# Tables

A table is a list of rows, in whatever order the engine keeps them. This file has the effect of
the SQL statements on one table and their algebra: lookup by a unique key, guarded updates, the three
inserts that resolve a conflict, `ORDER BY`, and what happens when the rows are permuted.
-/

namespace Table

variable {α κ : Type}

/-! ## Statements -/

/-- `UPDATE ... SET f WHERE p`. -/
def updateWhere (p : α → Bool) (f : α → α) (t : List α) : List α :=
  t.map fun r => if p r then f r else r

/-- `INSERT OR REPLACE`: conflicting rows go. -/
def insertOrReplace (clash : α → α → Bool) (r : α) (t : List α) : List α :=
  t.filter (fun o => !clash r o) ++ [r]

/-- `INSERT ... ON CONFLICT DO UPDATE SET f`. -/
def upsert (clash : α → α → Bool) (f : α → α) (r : α) (t : List α) : List α :=
  if t.any (clash r) then updateWhere (clash r) f t else t ++ [r]

/-- `ORDER BY` with the comparison `le`. -/
def orderBy (le : α → α → Bool) (t : List α) : List α := t.insertionSort fun a b => le a b

theorem orderBy_perm (le : α → α → Bool) (t : List α) : (orderBy le t).Perm t :=
  List.perm_insertionSort _ t

theorem orderBy_pairwise {le : α → α → Bool} (htotal : ∀ a b, le a b = true ∨ le b a = true)
    (htrans : ∀ a b c, le a b = true → le b c = true → le a c = true) (t : List α) :
    (orderBy le t).Pairwise fun a b => le a b = true := by
  have : Std.Total fun a b => le a b = true := ⟨htotal⟩
  have : IsTrans α fun a b => le a b = true := ⟨htrans⟩
  exact List.pairwise_insertionSort _ t

/-- Sorting by what `g` keeps. -/
theorem orderBy_map {β : Type} {g : α → β} {le : α → α → Bool} {le' : β → β → Bool}
    (h : ∀ a b, le' (g a) (g b) = le a b) (t : List α) :
    (orderBy le t).map g = orderBy le' (t.map g) :=
  List.map_insertionSort _ _ g t fun a _ b _ => by rw [h a b]

/-- `ORDER BY column ASC`. -/
theorem orderBy_asc [LinearOrder κ] (column : α → κ) (t : List α) :
    (orderBy (fun a b => column a ≤ column b) t).Pairwise fun a b => column a ≤ column b := by
  have h : (orderBy (fun a b => column a ≤ column b) t).Pairwise fun a b =>
      decide (column a ≤ column b) = true :=
    orderBy_pairwise (fun a b => by simpa using le_total (column a) (column b))
      (fun a b c => by simpa using le_trans) t
  exact h.imp of_decide_eq_true

/-- `ORDER BY column DESC`. -/
theorem orderBy_desc [LinearOrder κ] (column : α → κ) (t : List α) :
    (orderBy (fun a b => column b ≤ column a) t).Pairwise fun a b => column b ≤ column a := by
  have h : (orderBy (fun a b => column b ≤ column a) t).Pairwise fun a b =>
      decide (column b ≤ column a) = true :=
    orderBy_pairwise (fun a b => by simpa using le_total (column b) (column a))
      (fun a b c => by simpa using fun hab hbc => hbc.trans hab) t
  exact h.imp of_decide_eq_true

/-- The first row goes before every other. -/
theorem orderBy_head_le {le : α → α → Bool} (htotal : ∀ a b, le a b = true ∨ le b a = true)
    (htrans : ∀ a b c, le a b = true → le b c = true → le a c = true) {t : List α} {a : α}
    (h : (orderBy le t).head? = some a) : ∀ b ∈ t, le a b = true := by
  have hsorted := orderBy_pairwise htotal htrans t
  intro b hb
  have hb' := (orderBy_perm le t).mem_iff.2 hb
  cases hl : orderBy le t with
  | nil =>
    rw [hl] at h
    cases h
  | cons x l =>
    rw [hl] at h hsorted hb'
    cases h
    rcases List.mem_cons.1 hb' with rfl | hm
    · exact (htotal b b).elim id id
    · exact (List.pairwise_cons.1 hsorted).1 b hm

theorem orderBy_head_none {le : α → α → Bool} {t : List α} :
    (orderBy le t).head? = none ↔ t = [] := by
  rw [List.head?_eq_none_iff]
  constructor
  · intro h
    exact List.nil_perm.1 (h ▸ orderBy_perm le t)
  · intro h
    exact List.perm_nil.1 (h ▸ orderBy_perm le t)

theorem orderedInsert_filter {le : α → α → Prop} [DecidableRel le] [IsTrans α le] (p : α → Bool) (a : α) :
    ∀ {t : List α}, t.Pairwise le → (t.orderedInsert le a).filter p =
      if p a then (t.filter p).orderedInsert le a else t.filter p
  | [], _ => by simp [List.filter_cons]
  | b :: t, hs => by
    obtain ⟨hb, hs⟩ := List.pairwise_cons.1 hs
    have ih := orderedInsert_filter p a hs
    by_cases hab : le a b
    · rw [List.orderedInsert, if_pos hab, List.filter_cons]
      split
      · have hall : ∀ c ∈ (b :: t).filter p, le a c := by
          intro c hc
          rcases List.mem_cons.1 (List.mem_filter.1 hc).1 with rfl | hc
          · exact hab
          · exact IsTrans.trans a b c hab (hb c hc)
        cases hl : (b :: t).filter p with
        | nil => rfl
        | cons c l => rw [List.orderedInsert, if_pos (hall c (by simp [hl]))]
      · rfl
    · rw [List.orderedInsert, if_neg hab, List.filter_cons, ih, List.filter_cons]
      by_cases hpa : p a <;> by_cases hpb : p b <;> simp [hpa, hpb, hab]

/-- `ORDER BY` is stable, so `WHERE` may come after it. -/
theorem orderBy_filter {le : α → α → Bool} (htotal : ∀ a b, le a b = true ∨ le b a = true)
    (htrans : ∀ a b c, le a b = true → le b c = true → le a c = true) (p : α → Bool) (t : List α) :
    (orderBy le t).filter p = orderBy le (t.filter p) := by
  have : IsTrans α fun a b => le a b = true := ⟨htrans⟩
  induction t with
  | nil => rfl
  | cons a t ih =>
    have hinsert := orderedInsert_filter p a (orderBy_pairwise htotal htrans t)
    show (List.orderedInsert _ a (orderBy le t)).filter p = _
    rw [hinsert, ih, List.filter_cons]
    split <;> rfl

/-- Of a sorted table, the rows up to a value of the column come first. -/
theorem filter_prefix [LinearOrder κ] {column : α → κ} (x : κ) : ∀ {t : List α},
    (t.Pairwise fun a b => column a ≤ column b) → t.filter (fun a => column a ≤ x) <+: t
  | [], _ => List.prefix_rfl
  | a :: t, hs => by
    obtain ⟨ha, hs⟩ := List.pairwise_cons.1 hs
    by_cases hx : column a ≤ x
    · rw [List.filter_cons_of_pos (by simpa using hx)]
      exact List.cons_prefix_cons.2 ⟨rfl, filter_prefix x hs⟩
    · have hnone : (a :: t).filter (fun b => column b ≤ x) = [] := by
        refine List.filter_eq_nil_iff.2 fun b hb => ?_
        rcases List.mem_cons.1 hb with rfl | hb
        · simpa using hx
        · simpa using (lt_of_not_ge hx).trans_le (ha b hb)
      rw [hnone]
      exact List.nil_prefix

/-- More rows at the end of the order. -/
theorem orderBy_upTo [LinearOrder κ] {column : α → κ} (p : α → Bool) {x y : κ} (h : x ≤ y) (t : List α) :
    orderBy (fun a b => column a ≤ column b) (t.filter fun a => p a && column a ≤ x) <+:
      orderBy (fun a b => column a ≤ column b) (t.filter fun a => p a && column a ≤ y) := by
  have hrows : t.filter (fun a => p a && column a ≤ x) =
      (t.filter fun a => p a && column a ≤ y).filter fun a => column a ≤ x := by
    rw [List.filter_filter]
    refine List.filter_congr fun a _ => ?_
    by_cases hx : column a ≤ x
    · simp [hx, hx.trans h]
    · simp [hx]
  rw [hrows, ← orderBy_filter (fun a b => by simpa using le_total (column a) (column b))
    (fun a b c => by simpa using le_trans)]
  exact filter_prefix x (orderBy_asc column _)

/-- What `ORDER BY column DESC LIMIT n` returns of a table. -/
structure Page [LinearOrder κ] (column : α → κ) (n : Nat) (t page : List α) : Prop where
  sorted : page.Pairwise fun a b => column b ≤ column a
  length : page.length = min n t.length
  /-- no row is returned twice, and those that are not returned come after the others -/
  rest : ∃ others, (page ++ others).Perm t ∧ ∀ a ∈ page, ∀ b ∈ others, column b ≤ column a

theorem orderBy_page [LinearOrder κ] (column : α → κ) (n : Nat) (t : List α) :
    Page column n t ((orderBy (fun a b => column b ≤ column a) t).take n) := by
  have hsorted := orderBy_desc column t
  have hperm := orderBy_perm (fun a b => column b ≤ column a) t
  rw [← List.take_append_drop n (orderBy (fun a b => column b ≤ column a) t)] at hsorted
  obtain ⟨htake, -, hrest⟩ := List.pairwise_append.1 hsorted
  refine ⟨htake, ?_, (orderBy (fun a b => column b ≤ column a) t).drop n, ?_, hrest⟩
  · rw [List.length_take, hperm.length_eq]
  · rw [List.take_append_drop]
    exact hperm

/-- The same page of other rows that are in the same order. -/
theorem Page.map {β μ : Type} [LinearOrder κ] [LinearOrder μ] {column : α → κ} {c : β → μ} {g : α → β}
    (hg : ∀ a b, column a ≤ column b → c (g a) ≤ c (g b)) {n : Nat} {t page : List α} {u : List β}
    (h : Page column n t page) (ht : (t.map g).Perm u) : Page c n u (page.map g) := by
  obtain ⟨others, hperm, hafter⟩ := h.rest
  refine ⟨?_, ?_, others.map g, ?_, ?_⟩
  · rw [List.pairwise_map]
    exact h.sorted.imp fun hab => hg _ _ hab
  · rw [List.length_map, h.length, ← ht.length_eq, List.length_map]
  · rw [← List.map_append]
    exact (hperm.map g).trans ht
  · intro a' ha b' hb
    obtain ⟨a, hpage, rfl⟩ := List.mem_map.1 ha
    obtain ⟨b, hother, rfl⟩ := List.mem_map.1 hb
    exact hg _ _ (hafter a hpage b hother)

theorem Page.mem [LinearOrder κ] {column : α → κ} {n : Nat} {t page : List α} (h : Page column n t page)
    {a : α} (ha : a ∈ page) : a ∈ t := by
  obtain ⟨others, hperm, -⟩ := h.rest
  exact hperm.mem_iff.1 (List.mem_append_left _ ha)

section Lookup
variable [DecidableEq κ] (key : α → κ)

/-- The row with key `k`. -/
def lookup (k : κ) (t : List α) : Option α := t.find? fun r => key r = k

variable {key} {k : κ} {t : List α} {r : α}

theorem lookup_some (h : lookup key k t = some r) : r ∈ t ∧ key r = k :=
  ⟨List.mem_of_find?_eq_some h, by simpa using List.find?_some h⟩

theorem lookup_eq_none : lookup key k t = none ↔ ∀ r ∈ t, key r ≠ k := by
  simp [lookup]

theorem lookup_of_mem (hn : (t.map key).Nodup) (hr : r ∈ t) : lookup key (key r) t = some r := by
  induction t with
  | nil => cases hr
  | cons a t ih =>
    simp only [List.map_cons, List.nodup_cons] at hn
    by_cases ha : key a = key r
    · rcases List.mem_cons.1 hr with rfl | hm
      · simp [lookup]
      · exact absurd (ha ▸ List.mem_map_of_mem hm) hn.1
    · rcases List.mem_cons.1 hr with rfl | hm
      · exact absurd rfl ha
      · have := ih hn.2 hm
        simpa [lookup, List.find?_cons, ha] using this

theorem lookup_eq_some (hn : (t.map key).Nodup) : lookup key k t = some r ↔ r ∈ t ∧ key r = k := by
  constructor
  · exact lookup_some
  · rintro ⟨hm, rfl⟩
    exact lookup_of_mem hn hm

theorem lookup_perm {t' : List α} (hn : (t.map key).Nodup) (hp : t.Perm t') :
    lookup key k t = lookup key k t' := by
  have hn' : (t'.map key).Nodup := (hp.map key).nodup_iff.1 hn
  cases h : lookup key k t' with
  | none =>
    rw [lookup_eq_none] at h ⊢
    exact fun r hr => h r (hp.mem_iff.1 hr)
  | some r =>
    rw [lookup_eq_some hn'] at h
    rw [lookup_eq_some hn]
    exact ⟨hp.mem_iff.2 h.1, h.2⟩

theorem lookup_map {β : Type} {c : β → κ} {g : α → β} (hg : ∀ a, c (g a) = key a) (k : κ) (t : List α) :
    lookup c k (t.map g) = (lookup key k t).map g := by
  unfold lookup
  rw [List.find?_map]
  exact congrArg _ (congrArg (List.find? · t) (funext fun a => by simp [hg a]))

theorem lookup_append_singleton :
    lookup key k (t ++ [r]) = (lookup key k t).or (if key r = k then some r else none) := by
  simp only [lookup, List.find?_append, List.find?_cons, List.find?_nil]
  by_cases h : key r = k <;> simp [h]

/-- The rows of `t` whose key is in `t'` and the rows of `t'` whose key is in `t` are equally many. -/
theorem length_common {t' : List α} (hn : (t.map key).Nodup) (hn' : (t'.map key).Nodup) :
    (t.filter fun r => key r ∈ t'.map key).length = (t'.filter fun r => key r ∈ t.map key).length := by
  have hp : ((t.filter fun r => key r ∈ t'.map key).map key).Perm
      ((t'.filter fun r => key r ∈ t.map key).map key) := by
    refine (List.perm_ext_iff_of_nodup (hn.sublist (List.filter_sublist.map _))
      (hn'.sublist (List.filter_sublist.map _))).2 fun k => ?_
    simp only [List.mem_map, List.mem_filter, decide_eq_true_eq]
    constructor
    · rintro ⟨r, ⟨hr, r', hr', he⟩, rfl⟩
      exact ⟨r', ⟨hr', r, hr, he.symm⟩, he⟩
    · rintro ⟨r, ⟨hr, r', hr', he⟩, rfl⟩
      exact ⟨r', ⟨hr', r, hr, he.symm⟩, he⟩
  simpa using hp.length_eq

/-- One table is no longer than another when it has no more rows of its own. -/
theorem length_le_iff {t' : List α} (hn : (t.map key).Nodup) (hn' : (t'.map key).Nodup) :
    t.length ≤ t'.length ↔ (t.filter fun r => key r ∉ t'.map key).length ≤
      (t'.filter fun r => key r ∉ t.map key).length := by
  have hc := length_common hn hn'
  have h := List.length_eq_length_filter_add (l := t) fun r => decide (key r ∈ t'.map key)
  have h' := List.length_eq_length_filter_add (l := t') fun r => decide (key r ∈ t.map key)
  simp only [decide_not]
  omega

end Lookup

/-! ## Guarded updates -/

section Update
variable {p : α → Bool} {f : α → α} {t : List α}

theorem updateWhere_cons (r : α) :
    updateWhere p f (r :: t) = (if p r then f r else r) :: updateWhere p f t := rfl

theorem updateWhere_append (t' : List α) :
    updateWhere p f (t ++ t') = updateWhere p f t ++ updateWhere p f t' := by
  simp [updateWhere]

theorem updateWhere_eq_self (h : ∀ r ∈ t, p r = false) : updateWhere p f t = t := by
  unfold updateWhere
  conv => rhs; rw [← List.map_id t]
  exact List.map_congr_left fun r hr => by simp [h r hr]

theorem updateWhere_perm {t' : List α} (hp : t.Perm t') :
    (updateWhere p f t).Perm (updateWhere p f t') := hp.map _

/-- Updates that agree on the rows of the table. -/
theorem updateWhere_congr {f' : α → α} (h : ∀ r ∈ t, p r = true → f r = f' r) :
    updateWhere p f t = updateWhere p f' t := by
  refine List.map_congr_left fun r hr => ?_
  by_cases hp : p r = true
  · rw [if_pos hp, if_pos hp, h r hr hp]
  · rw [if_neg hp, if_neg hp]

/-- Updates that agree on rows that are equal under `g`. -/
theorem updateWhere_map_congr {β : Type} {g : α → β} {p' : α → Bool} {f' : α → α}
    (h : ∀ a b, g a = g b → p a = p' b ∧ g (f a) = g (f' b)) :
    ∀ {t t' : List α}, t.map g = t'.map g →
      (updateWhere p f t).map g = (updateWhere p' f' t').map g
  | [], [], _ => rfl
  | a :: t, b :: t', he => by
    simp only [List.map_cons, List.cons.injEq] at he
    obtain ⟨hp, hf⟩ := h a b he.1
    have ih := updateWhere_map_congr h he.2
    rw [updateWhere_cons, updateWhere_cons, List.map_cons, List.map_cons, ih, hp]
    by_cases hb : p' b = true
    · rw [if_pos hb, if_pos hb, hf]
    · rw [if_neg hb, if_neg hb, he.1]

theorem mem_updateWhere {r : α} :
    r ∈ updateWhere p f t ↔ ∃ o ∈ t, (if p o then f o else o) = r := by
  simp [updateWhere]

/-- A column that the assignment leaves alone keeps its values. -/
theorem map_updateWhere {β : Type} {g : α → β} (hg : ∀ r, p r = true → g (f r) = g r) :
    (updateWhere p f t).map g = t.map g := by
  simp only [updateWhere, List.map_map]
  refine List.map_congr_left fun r _ => ?_
  simp only [Function.comp_apply]
  split
  · rename_i h
    exact hg r h
  · rfl

theorem countP_zero_iff : t.countP p = 0 ↔ ∀ r ∈ t, p r = false := by
  simp [List.countP_eq_zero]

/-- An update that takes rows from `a` to `b` on a test `q` moves their number over. -/
theorem countP_updateWhere {q : α → Bool} (a b : Bool)
    (h : ∀ r ∈ t, p r = true → q r = a ∧ q (f r) = b) :
    (updateWhere p f t).countP q + (if a then t.countP p else 0) =
      t.countP q + if b then t.countP p else 0 := by
  induction t with
  | nil => simp [updateWhere]
  | cons r t ih =>
    have ih := ih fun o ho => h o (List.mem_cons_of_mem _ ho)
    rw [updateWhere_cons, List.countP_cons, List.countP_cons, List.countP_cons]
    cases hp : p r with
    | false => cases a <;> cases b <;> simp at ih ⊢ <;> omega
    | true =>
      obtain ⟨ha, hb⟩ := h r (List.mem_cons_self ..) hp
      cases a <;> cases b <;> simp [ha, hb] at ih ⊢ <;> omega

section Key
variable [DecidableEq κ] {key : α → κ} {k : κ}

theorem lookup_updateWhere (hf : ∀ r, p r = true → key (f r) = key r) :
    lookup key k (updateWhere p f t) =
      (lookup key k t).map fun r => if p r then f r else r := by
  induction t with
  | nil => rfl
  | cons r t ih =>
    have hk : key (if p r then f r else r) = key r := by
      split
      · rename_i h
        exact hf r h
      · rfl
    rw [updateWhere_cons]
    by_cases h : key r = k
    · simp [lookup, hk, h]
    · simpa [lookup, List.find?_cons, hk, h] using ih

/-- An update guarded by a unique key changes one row or none. -/
theorem update_key_cases (hn : (t.map key).Nodup) (hp : ∀ r, p r = true → key r = k) :
    (t.countP p = 0 ∧ updateWhere p f t = t ∧ ∀ r, lookup key k t = some r → p r = false) ∨
      (∃ r, lookup key k t = some r ∧ p r = true ∧ t.countP p = 1 ∧
        ∀ o ∈ t, key o ≠ k → p o = false) := by
  by_cases h : ∃ r ∈ t, p r = true
  · obtain ⟨r, hr, hpr⟩ := h
    have hk : key r = k := hp r hpr
    refine .inr ⟨r, hk ▸ lookup_of_mem hn hr, hpr, ?_, fun o _ ho => ?_⟩
    · have hle : t.countP p ≤ (t.map key).count k := by
        rw [List.count, List.countP_map]
        exact List.countP_mono_left fun o _ ho => by simpa using hp o ho
      have h1 := List.nodup_iff_count_le_one.1 hn k
      have h0 := List.countP_pos_iff.2 ⟨r, hr, hpr⟩
      omega
    · by_contra hc
      exact ho (hp o (by simpa using hc))
  · simp only [not_exists, not_and, Bool.not_eq_true] at h
    exact .inl ⟨countP_zero_iff.2 h, updateWhere_eq_self h, fun r hr => h r (lookup_some hr).1⟩

/-- An upsert that writes all columns sets the row of its key. -/
theorem lookup_upsert {r : α} {f : α → α} (hf : ∀ o, key o = key r → f o = r) (k : κ) :
    lookup key k (upsert (fun r o => key r = key o) f r t) =
      if k = key r then some r else lookup key k t := by
  unfold upsert
  split
  · rename_i hany
    rw [lookup_updateWhere fun o ho => by rw [hf o (of_decide_eq_true ho).symm, of_decide_eq_true ho]]
    by_cases hk : k = key r
    · obtain ⟨o, ho, hro⟩ := List.any_eq_true.1 hany
      have hro : key o = k := by rw [hk, of_decide_eq_true hro]
      cases hl : lookup key k t with
      | none => exact absurd hro (lookup_eq_none.1 hl o ho)
      | some o' =>
        have hko : key o' = key r := by rw [(lookup_some hl).2, hk]
        rw [if_pos hk, Option.map_some, if_pos (decide_eq_true hko.symm), hf o' hko]
    · rw [if_neg hk]
      cases hl : lookup key k t with
      | none => rfl
      | some o' =>
        have hko : ¬ key r = key o' := by
          rw [(lookup_some hl).2]
          exact Ne.symm hk
        rw [Option.map_some, if_neg (by simp [hko])]
  · rename_i hany
    rw [lookup_append_singleton]
    by_cases hk : k = key r
    · have hnone : lookup key k t = none := by
        refine lookup_eq_none.2 fun o ho hko => hany (List.any_eq_true.2 ⟨o, ho, ?_⟩)
        exact decide_eq_true (by rw [hko, hk])
      rw [hnone, if_pos hk.symm, if_pos hk, Option.none_or]
    · rw [if_neg (Ne.symm hk), if_neg hk, Option.or_none]

end Key
end Update

/-! ## Other orders of the rows -/

section Reordered
variable {p q : α → Bool} {f g : α → α} {clash : α → α → Bool} {r r' : α} {t t' : List α}

theorem find?_perm (hp : t.Perm t') (hu : ∀ a ∈ t, ∀ b ∈ t, p a = true → p b = true → a = b) :
    t.find? p = t'.find? p := by
  cases h : t.find? p with
  | none =>
    rw [List.find?_eq_none] at h
    refine (List.find?_eq_none.2 fun a ha => ?_).symm
    exact h a (hp.mem_iff.2 ha)
  | some a =>
    have hpa := List.find?_some h
    have ha := List.mem_of_find?_eq_some h
    cases h' : t'.find? p with
    | none =>
      rw [List.find?_eq_none] at h'
      exact absurd hpa (h' a (hp.mem_iff.1 ha))
    | some b =>
      have hb := hp.mem_iff.2 (List.mem_of_find?_eq_some h')
      rw [hu a ha b hb hpa (List.find?_some h')]

theorem insertOrReplace_perm (hp : t.Perm t') :
    (insertOrReplace clash r t).Perm (insertOrReplace clash r t') :=
  (hp.filter _).append_right _

theorem upsert_perm (hp : t.Perm t') : (upsert clash f r t).Perm (upsert clash f r t') := by
  unfold upsert
  rw [hp.any_eq]
  split
  · exact updateWhere_perm hp
  · exact hp.append_right _

/-- Two updates that do not see each other's rows. -/
theorem updateWhere_comm (hp : ∀ r, p r = true → q r = false ∧ q (f r) = false)
    (hq : ∀ r, q r = true → p r = false ∧ p (g r) = false) :
    updateWhere p f (updateWhere q g t) = updateWhere q g (updateWhere p f t) := by
  simp only [updateWhere, List.map_map]
  refine List.map_congr_left fun r _ => ?_
  simp only [Function.comp_apply]
  by_cases h : p r = true
  · simp [h, (hp r h).1, (hp r h).2]
  · by_cases h' : q r = true
    · simp [h', (hq r h').1, (hq r h').2]
    · simp [h, h']

/-- Two replacements that do not conflict. -/
theorem insertOrReplace_comm (h : clash r r' = false) (h' : clash r' r = false) :
    (insertOrReplace clash r (insertOrReplace clash r' t)).Perm
      (insertOrReplace clash r' (insertOrReplace clash r t)) := by
  simp only [insertOrReplace, List.filter_append, List.filter_filter, List.filter_cons, h, h',
    Bool.not_false, if_true, List.filter_nil, List.append_assoc, Bool.and_comm]
  exact (List.Perm.swap _ _ _).append_left _

/-- When the update writes all columns, and at most one row conflicts, it replaces that row. -/
theorem insertOrReplace_upsert [DecidableEq κ] {key : α → κ} (hn : (t.map key).Nodup)
    (hc : ∀ o, clash r o = true → key o = key r ∧ f o = r) :
    (insertOrReplace clash r t).Perm (upsert clash f r t) := by
  unfold insertOrReplace upsert
  by_cases h : t.any (clash r) = true
  · rw [if_pos h]
    obtain ⟨o, ho, hro⟩ := List.any_eq_true.1 h
    obtain ⟨l₁, l₂, rfl⟩ := List.append_of_mem ho
    have hkey := (hc o hro).1
    have hother : ∀ l, (∀ x ∈ l, key x ≠ key o) →
        l.filter (fun x => !clash r x) = l ∧ updateWhere (clash r) f l = l := by
      intro l hl
      have hf : ∀ x ∈ l, clash r x = false := by
        intro x hx
        by_contra hcl
        exact hl x hx ((hc x (by simpa using hcl)).1.trans hkey.symm)
      exact ⟨List.filter_eq_self.2 fun x hx => by simp [hf x hx], updateWhere_eq_self hf⟩
    rw [List.map_append, List.map_cons, List.nodup_append] at hn
    obtain ⟨-, hn₂, hn₁⟩ := hn
    obtain ⟨hf₁, hu₁⟩ := hother l₁ fun x hx he =>
      hn₁ _ (List.mem_map_of_mem hx) _ (List.mem_cons_self ..) he
    obtain ⟨hf₂, hu₂⟩ := hother l₂ fun x hx he =>
      (List.nodup_cons.1 hn₂).1 (he ▸ List.mem_map_of_mem hx)
    rw [List.filter_append, List.filter_cons, updateWhere_append, updateWhere_cons, hf₁, hf₂, hu₁,
      hu₂, hro, if_pos rfl, (hc o hro).2]
    simp only [Bool.not_true, Bool.false_eq_true, if_false]
    exact (List.perm_append_singleton _ _).trans List.perm_middle.symm
  · rw [if_neg h]
    have hf : t.filter (fun o => !clash r o) = t := by
      refine List.filter_eq_self.2 fun o ho => ?_
      simp only [Bool.not_eq_true, List.any_eq_false] at h
      simp [h o ho]
    rw [hf]

/-- Without ties the result of `ORDER BY` does not depend on the order of the table. -/
theorem orderBy_eq_of_perm {le : α → α → Bool} (htotal : ∀ a b, le a b = true ∨ le b a = true)
    (htrans : ∀ a b c, le a b = true → le b c = true → le a c = true)
    (hties : ∀ a ∈ t, ∀ b ∈ t, le a b = true → le b a = true → a = b) (hp : t.Perm t') :
    orderBy le t = orderBy le t' := by
  have hsorted := orderBy_pairwise htotal htrans
  refine List.Perm.eq_of_pairwise ?_ (hsorted t) (hsorted t') ?_
  · intro a b ha hb
    exact hties a ((orderBy_perm _ _).mem_iff.1 ha) b
      (hp.mem_iff.2 ((orderBy_perm _ _).mem_iff.1 hb))
  · exact (orderBy_perm le t).trans (hp.trans (orderBy_perm le t').symm)

/-- Permuted tables whose keys are in the same order are equal. -/
theorem eq_of_perm_of_keys {key : α → κ} : ∀ {t t' : List α}, (t.map key).Nodup → t.Perm t' →
    t.map key = t'.map key → t = t'
  | [], _, _, hp, _ => (List.nil_perm.1 hp).symm
  | a :: t, [], _, hp, _ => absurd hp.length_eq (by simp)
  | a :: t, b :: t', hn, hp, hk => by
    obtain ⟨-, hkeys⟩ := List.cons.inj hk
    obtain ⟨hnot, hn⟩ := List.nodup_cons.1 hn
    have ha : a = b := by
      rcases List.mem_cons.1 (hp.mem_iff.1 (List.mem_cons_self ..)) with h | h
      · exact h
      · exact absurd (hkeys ▸ List.mem_map_of_mem h) hnot
    subst ha
    rw [eq_of_perm_of_keys hn ((List.perm_cons a).1 hp) hkeys]

end Reordered

end Table
