import EgressDns.Lib.Maps
import Mathlib.Data.List.Lex
import Mathlib.Data.List.Perm.Basic
import Mathlib.Data.List.Sort

/-!
# Framed concatenations of sorted parts

A list of parts is sorted and written out as one string of frames. When a frame can be told from
what follows it, the string determines the parts up to their order. Pieces may also be closed by a
separator that they contain themselves. The entries of a map, sorted by key, depend only on what it
holds.
-/

namespace EgressDns.Lib

universe u v w

section Frames

variable {A : Type u} {B : Type v}

/-- A frame can be told from what follows it. -/
def SelfDelimiting (frame : A → List B) : Prop :=
  ∀ a a' rest rest', frame a ++ rest = frame a' ++ rest' → a = a' ∧ rest = rest'

theorem flatMap_injective {frame : A → List B} (h : SelfDelimiting frame)
    (hne : ∀ a, frame a ≠ []) : Function.Injective (List.flatMap frame) := by
  intro as bs he
  induction as generalizing bs with
  | nil =>
    cases bs with
    | nil => rfl
    | cons b bs =>
      have hb := congrArg List.length he
      have hpos := List.length_pos_iff.mpr (hne b)
      simp only [List.flatMap_nil, List.length_nil, List.flatMap_cons, List.length_append] at hb
      omega
  | cons a as ih =>
    cases bs with
    | nil =>
      have ha := congrArg List.length he
      have hpos := List.length_pos_iff.mpr (hne a)
      simp only [List.flatMap_nil, List.length_nil, List.flatMap_cons, List.length_append] at ha
      omega
    | cons b bs =>
      obtain ⟨hab, hrest⟩ := h a b _ _ he
      rw [hab, ih hrest]

theorem selfDelimiting_counted {frame : A → List B} (h : SelfDelimiting frame) {count : Nat → B}
    (hcount : Function.Injective count) :
    SelfDelimiting fun as : List A => count as.length :: as.flatMap frame := by
  have hsame : ∀ (as bs : List A) (rest rest' : List B), as.length = bs.length →
      as.flatMap frame ++ rest = bs.flatMap frame ++ rest' → as = bs ∧ rest = rest' := by
    intro as
    induction as with
    | nil =>
      intro bs rest rest' hlen he
      obtain rfl := List.length_eq_zero_iff.mp hlen.symm
      exact ⟨rfl, he⟩
    | cons a as ih =>
      intro bs rest rest' hlen he
      cases bs with
      | nil => cases hlen
      | cons b bs =>
        rw [List.flatMap_cons, List.flatMap_cons, List.append_assoc, List.append_assoc] at he
        obtain ⟨hab, htail⟩ := h a b _ _ he
        obtain ⟨has, hrest⟩ := ih bs rest rest' (Nat.succ.inj hlen) htail
        exact ⟨by rw [hab, has], hrest⟩
  intro as bs rest rest' he
  obtain ⟨hhead, htail⟩ := List.cons.inj he
  exact hsame as bs rest rest' (hcount hhead) htail

def Follows (frame : A → List B) (E : List B → Prop) (rest : List B) : Prop :=
  E rest ∨ ∃ a more, rest = frame a ++ more

theorem flatMap_append_inj {frame : A → List B} {E : List B → Prop}
    (hframe : ∀ a a' rest rest', Follows frame E rest → Follows frame E rest' →
      frame a ++ rest = frame a' ++ rest' → a = a' ∧ rest = rest')
    (hend : ∀ a more, ¬E (frame a ++ more)) {as bs : List A} {rest rest' : List B}
    (hr : E rest) (hr' : E rest')
    (he : as.flatMap frame ++ rest = bs.flatMap frame ++ rest') : as = bs ∧ rest = rest' := by
  have hfollows : ∀ (as : List A) {rest : List B}, E rest →
      Follows frame E (as.flatMap frame ++ rest) := by
    intro as rest hr
    cases as with
    | nil => exact .inl hr
    | cons a as => exact .inr ⟨a, _, by rw [List.flatMap_cons, List.append_assoc]⟩
  induction as generalizing bs with
  | nil =>
    cases bs with
    | nil => exact ⟨rfl, he⟩
    | cons b bs =>
      rw [List.flatMap_nil, List.nil_append, List.flatMap_cons, List.append_assoc] at he
      exact absurd (he ▸ hr) (hend b _)
  | cons a as ih =>
    cases bs with
    | nil =>
      rw [List.flatMap_nil, List.nil_append, List.flatMap_cons, List.append_assoc] at he
      exact absurd (he ▸ hr') (hend a _)
    | cons b bs =>
      rw [List.flatMap_cons, List.flatMap_cons, List.append_assoc, List.append_assoc] at he
      obtain ⟨hab, htail⟩ := hframe a b _ _ (hfollows as hr) (hfollows bs hr') he
      obtain ⟨has, hrest⟩ := ih htail
      exact ⟨by rw [hab, has], hrest⟩

theorem append_cons_inj {s : B} {xs ys rest rest' : List B} (hx : s ∉ xs) (hy : s ∉ ys)
    (h : xs ++ s :: rest = ys ++ s :: rest') : xs = ys ∧ rest = rest' := by
  induction xs generalizing ys with
  | nil =>
    cases ys with
    | nil => exact ⟨rfl, (List.cons.inj h).2⟩
    | cons y ys =>
      have hhead := (List.cons.inj h).1
      exact absurd (hhead ▸ List.mem_cons_self) hy
  | cons x xs ih =>
    cases ys with
    | nil =>
      have hhead := (List.cons.inj h).1
      exact absurd (hhead ▸ List.mem_cons_self) hx
    | cons y ys =>
      obtain ⟨hhead, htail⟩ := List.cons.inj h
      obtain ⟨hxy, hrest⟩ := ih (fun hm => hx (List.mem_cons_of_mem x hm))
        (fun hm => hy (List.mem_cons_of_mem y hm)) htail
      exact ⟨by rw [hhead, hxy], hrest⟩

end Frames

section Sorting

variable {A : Type u} (r : A → A → Prop) [DecidableRel r] [Std.Total r] [IsTrans A r]

theorem insertionSort_eq_iff_perm (hanti : ∀ a b, r a b → r b a → a = b) (as bs : List A) :
    as.insertionSort r = bs.insertionSort r ↔ as.Perm bs := by
  constructor
  · intro h
    have ha := List.perm_insertionSort r as
    exact (ha.symm.trans (List.Perm.of_eq h)).trans (List.perm_insertionSort r bs)
  · intro h
    have hp := ((List.perm_insertionSort r as).trans h).trans (List.perm_insertionSort r bs).symm
    exact hp.eq_of_pairwise (fun a b _ _ => hanti a b) (List.pairwise_insertionSort r as)
      (List.pairwise_insertionSort r bs)

end Sorting

section Pieces

variable {A : Type u} (sep : A)

def close (pieces : List (List A)) : List A := pieces.flatMap (· ++ [sep])

variable {sep} {p x y : List A} {pieces as bs : List (List A)}

@[simp] theorem close_nil : close sep [] = [] := rfl

@[simp] theorem close_cons : close sep (p :: pieces) = p ++ sep :: close sep pieces := by
  simp [close]

theorem close_append : close sep (as ++ bs) = close sep as ++ close sep bs := List.flatMap_append

theorem close_ne_nil (h : pieces ≠ []) : close sep pieces ≠ [] := by
  cases pieces with
  | nil => exact absurd rfl h
  | cons p pieces => simp

theorem exists_close_eq (sep : A) (h : pieces ≠ []) :
    ∃ init, close sep pieces = init ++ [sep] := by
  obtain ⟨front, last, rfl⟩ := (List.eq_nil_or_concat pieces).resolve_left h
  exact ⟨close sep front ++ last, by simp [close_append]⟩

/-- A cut of the closed form is between two pieces or inside one. -/
theorem close_map_eq_append {B : Type*} {f : B → List A} {names : List B}
    (h : close sep (names.map f) = x ++ sep :: y) :
    (∃ front rest, names = front ++ rest ∧ close sep (rest.map f) = y) ∨
    ∃ front l rest u v, names = front ++ l :: rest ∧ f l = u ++ sep :: v ∧
      y = v ++ sep :: close sep (rest.map f) := by
  induction names generalizing x with
  | nil =>
    have hlen := congrArg List.length h
    simp at hlen
  | cons l names ih =>
    rw [List.map_cons, close_cons] at h
    rcases List.append_eq_append_iff.mp h with ⟨w, rfl, hw⟩ | ⟨w, hl, hw⟩
    · cases w with
      | nil => exact .inl ⟨[l], names, rfl, (List.cons.inj hw).2⟩
      | cons c w =>
        rcases ih (List.cons.inj hw).2 with ⟨front, rest, rfl, hy⟩ | ⟨front, l', rest, u, v, rfl, hin⟩
        · exact .inl ⟨l :: front, rest, rfl, hy⟩
        · exact .inr ⟨l :: front, l', rest, u, v, rfl, hin⟩
    · cases w with
      | nil => exact .inl ⟨[l], names, rfl, (List.cons.inj hw).2.symm⟩
      | cons c w =>
        obtain ⟨rfl, hy⟩ := List.cons.inj hw
        exact .inr ⟨[], l, names, x, w, rfl, hl, hy⟩

theorem close_inj (has : ∀ a ∈ as, sep ∉ a) (hbs : ∀ b ∈ bs, sep ∉ b)
    (h : close sep as = close sep bs) : as = bs := by
  induction as generalizing bs with
  | nil =>
    cases bs with
    | nil => rfl
    | cons b bs => exact absurd h.symm (close_ne_nil (List.cons_ne_nil b bs))
  | cons a as ih =>
    cases bs with
    | nil => exact absurd h (close_ne_nil (List.cons_ne_nil a as))
    | cons b bs =>
      rw [close_cons, close_cons] at h
      obtain ⟨rfl, hrest⟩ := append_cons_inj (has a List.mem_cons_self)
        (hbs b List.mem_cons_self) h
      rw [ih (fun c hc => has c (List.mem_cons_of_mem _ hc))
        (fun c hc => hbs c (List.mem_cons_of_mem _ hc)) hrest]

end Pieces

section Rows

variable {K : Type u} {V : Type v} {W : Type w}

namespace Map

def rows (f : V → W) (m : Map K V) : List (K × W) := m.entries.map fun e => (e.1, f e.2)

variable {f : V → W} {m m' : Map K V}

theorem nodup_rows : (m.rows f).Nodup := by
  apply List.Nodup.of_map Prod.fst
  unfold rows
  rw [List.map_map]
  exact m.nodupKeys

section Sorted

variable (r : K → K → Prop) [DecidableRel r]

def sortedEntries (m : Map K V) : List (Sigma fun _ : K => V) :=
  m.entries.insertionSort fun a b => r a.1 b.1

def sortedRows (f : V → W) (m : Map K V) : List (K × W) :=
  (m.sortedEntries r).map fun e => (e.1, f e.2)

variable {r}

theorem perm_sortedRows : (m.sortedRows r f).Perm (m.rows f) :=
  (List.perm_insertionSort _ _).map _

theorem sortedRows_pairwise [Std.Total r] [IsTrans K r] :
    (m.sortedRows r f).Pairwise fun a b => r a.1 b.1 := by
  have : Std.Total fun a b : Sigma fun _ : K => V => r a.1 b.1 :=
    ⟨fun a b => Std.Total.total a.1 b.1⟩
  have : IsTrans (Sigma fun _ : K => V) fun a b => r a.1 b.1 :=
    ⟨fun a b c => IsTrans.trans a.1 b.1 c.1⟩
  exact List.pairwise_map.mpr (List.pairwise_insertionSort _ _)

end Sorted

variable [DecidableEq K]

theorem mem_rows_iff {k : K} {w : W} : (k, w) ∈ m.rows f ↔ (m.lookup k).map f = some w := by
  unfold rows
  rw [List.mem_map, Option.map_eq_some_iff]
  constructor
  · rintro ⟨e, he, heq⟩
    cases heq
    exact ⟨e.2, AList.mem_lookup_iff.mpr he, rfl⟩
  · rintro ⟨v, hv, rfl⟩
    exact ⟨⟨k, v⟩, AList.mem_lookup_iff.mp hv, rfl⟩

theorem perm_rows_iff :
    (m.rows f).Perm (m'.rows f) ↔ ∀ k, (m.lookup k).map f = (m'.lookup k).map f := by
  rw [List.perm_ext_iff_of_nodup nodup_rows nodup_rows]
  constructor
  · intro h k
    apply Option.ext
    intro w
    rw [← mem_rows_iff, ← mem_rows_iff]
    exact h (k, w)
  · rintro h ⟨k, w⟩
    rw [mem_rows_iff, mem_rows_iff, h k]

/-- Rows written one after the other; a later one replaces an earlier one with its key. -/
def insertAll (m : Map K V) (rows : List (K × V)) : Map K V :=
  rows.foldl (fun m row => m.insert row.1 row.2) m

theorem entries_insertAll {rows : List (K × V)} (hd : (rows.map Prod.fst).Nodup)
    (hm : ∀ row ∈ rows, row.1 ∉ m) :
    (m.insertAll rows).entries = (rows.map fun row => ⟨row.1, row.2⟩).reverse ++ m.entries := by
  induction rows generalizing m with
  | nil => rfl
  | cons row rows ih =>
    obtain ⟨hrow, hd⟩ := List.nodup_cons.mp hd
    have hnext : ∀ r ∈ rows, r.1 ∉ m.insert row.1 row.2 := by
      intro r hr hmem
      rcases (AList.mem_insert m).mp hmem with heq | hold
      · exact hrow (heq ▸ List.mem_map_of_mem hr)
      · exact hm r (List.mem_cons_of_mem _ hr) hold
    change (insertAll (m.insert row.1 row.2) rows).entries = _
    rw [ih hd hnext, AList.entries_insert_of_notMem (hm row List.mem_cons_self), List.map_cons,
      List.reverse_cons, List.append_assoc]
    rfl

theorem perm_rows_insertAll {rows : List (K × V)} (hd : (rows.map Prod.fst).Nodup) :
    (((∅ : Map K V).insertAll rows).rows id).Perm rows := by
  unfold Map.rows
  rw [entries_insertAll hd fun _ _ => AList.notMem_empty _]
  rw [AList.empty_entries, List.append_nil, List.map_reverse, List.map_map]
  exact (List.reverse_perm _).trans (List.Perm.of_eq (List.map_id rows))

theorem sortedRows_eq_iff {r : K → K → Prop} [DecidableRel r] [Std.Total r] [IsTrans K r]
    (hanti : ∀ a b, r a b → r b a → a = b) :
    m.sortedRows r f = m'.sortedRows r f ↔ ∀ k, (m.lookup k).map f = (m'.lookup k).map f := by
  rw [← perm_rows_iff]
  constructor
  · intro h
    exact (perm_sortedRows.symm.trans (List.Perm.of_eq h)).trans perm_sortedRows
  · intro h
    have hp : (m.sortedRows r f).Perm (m'.sortedRows r f) :=
      (perm_sortedRows.trans h).trans perm_sortedRows.symm
    refine hp.eq_of_pairwise ?_ sortedRows_pairwise sortedRows_pairwise
    rintro ⟨k, w⟩ ⟨k', w'⟩ hmem hmem' hab hba
    -- Both are rows of the one map, which has a key once.
    obtain rfl := hanti k k' hab hba
    have hw := mem_rows_iff.mp (perm_sortedRows.mem_iff.mp hmem)
    have hw' := mem_rows_iff.mp (h.mem_iff.mpr (perm_sortedRows.mem_iff.mp hmem'))
    rw [hw] at hw'
    rw [Option.some.inj hw']

end Map

end Rows

end EgressDns.Lib
