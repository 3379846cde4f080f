import Mathlib.Data.List.Forall2

/-!
# Computations that may fail

When a chain of steps, or a step taken for every member of a list, succeeds.
-/

namespace EgressDns.Lib

variable {E A B : Type} {f : A → Except E B} {x : Except E A} {b : B} {as : List A} {bs : List B}
  {R : A → B → Prop}

theorem bind_eq_ok_iff : (x >>= f) = .ok b ↔ ∃ a, x = .ok a ∧ f a = .ok b := by
  cases x with
  | error e | ok a => simp [bind, Except.bind]

theorem map_eq_ok_iff {f : A → B} : x.map f = .ok b ↔ ∃ a, x = .ok a ∧ f a = b := by
  cases x with
  | error e | ok a => simp [Except.map]

theorem mapError_eq_ok_iff {E' : Type} {f : E → E'} {a : A} : x.mapError f = .ok a ↔ x = .ok a := by
  cases x with
  | error e | ok a' => simp [Except.mapError]

theorem mapM_eq_ok_iff : as.mapM f = .ok bs ↔ List.Forall₂ (fun a b => f a = .ok b) as bs := by
  induction as generalizing bs with
  | nil => simp [pure, Except.pure, eq_comm]
  | cons a rest ih =>
    rw [List.mapM_cons, bind_eq_ok_iff, List.forall₂_cons_left_iff]
    constructor
    · rintro ⟨b, hb, hmore⟩
      obtain ⟨more, hrest, heq⟩ := bind_eq_ok_iff.mp hmore
      exact ⟨b, more, hb, ih.mp hrest, (Except.ok.inj heq).symm⟩
    · rintro ⟨b, more, hb, hrest, rfl⟩
      exact ⟨b, hb, bind_eq_ok_iff.mpr ⟨more, ih.mpr hrest, rfl⟩⟩

theorem exists_of_mem_right (h : List.Forall₂ R as bs) (hb : b ∈ bs) : ∃ a ∈ as, R a b := by
  induction h with
  | nil => cases hb
  | cons hab _ ih =>
    rcases List.mem_cons.mp hb with rfl | hb
    · exact ⟨_, List.mem_cons_self, hab⟩
    · obtain ⟨a, ha, hr⟩ := ih hb
      exact ⟨a, List.mem_cons_of_mem _ ha, hr⟩

theorem exists_of_mem_left (h : List.Forall₂ R as bs) {a : A} (ha : a ∈ as) : ∃ b ∈ bs, R a b := by
  induction h with
  | nil => cases ha
  | cons hab _ ih =>
    rcases List.mem_cons.mp ha with rfl | ha
    · exact ⟨_, List.mem_cons_self, hab⟩
    · obtain ⟨b, hb, hr⟩ := ih ha
      exact ⟨b, List.mem_cons_of_mem _ hb, hr⟩

theorem exists_mapM_ok (h : ∀ a ∈ as, ∃ b, f a = .ok b) : ∃ bs, as.mapM f = .ok bs := by
  induction as with
  | nil => exact ⟨[], rfl⟩
  | cons a rest ih =>
    obtain ⟨b, hb⟩ := h a List.mem_cons_self
    obtain ⟨more, hmore⟩ := ih fun c hc => h c (List.mem_cons_of_mem a hc)
    exact ⟨b :: more, mapM_eq_ok_iff.mpr (.cons hb (mapM_eq_ok_iff.mp hmore))⟩

theorem mapM_map {C : Type} (f : A → Except E B) (g : B → C) (as : List A) :
    (as.mapM fun a => (f a).map g) = (as.mapM f).map (List.map g) := by
  induction as with
  | nil => rfl
  | cons a rest ih =>
    rw [List.mapM_cons, List.mapM_cons, ih]
    cases f a with
    | error e => rfl
    | ok b =>
      cases rest.mapM f with
      | error e | ok bs => rfl

theorem map_flatten_of_mapM {C : Type} {f : A → Except E (List B)} {g : B → C} {k : A → List C}
    {out : List B} (h : (as.mapM f).map List.flatten = .ok out)
    (hk : ∀ a ∈ as, ∀ bs, f a = .ok bs → bs.map g = k a) : out.map g = as.flatMap k := by
  obtain ⟨lists, hmap, rfl⟩ := map_eq_ok_iff.mp h
  have hall := mapM_eq_ok_iff.mp hmap
  clear hmap h
  induction hall with
  | nil => rfl
  | cons ha _ ih =>
    rw [List.flatten_cons, List.map_append, List.flatMap_cons, hk _ List.mem_cons_self _ ha,
      ih fun a ha' => hk a (List.mem_cons_of_mem _ ha')]

end EgressDns.Lib
