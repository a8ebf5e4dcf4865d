import BuyingClub.Proofs.Updates

/-!
# Numbers given out

Identifiers are numbered one after the other, in 64 bits. As long as a counter does not run over,
what is drawn from it goes up, and is new.
-/

namespace BuyingClub

variable {kind : Kind} {next next' : Nat}

/-! ## Drawing -/

/-- What is drawn one after the other from a counter that is at `next`. -/
def drawn (kind : Kind) (next count : Nat) : List (Identifier kind) :=
  (List.range count).map fun i => ⟨followingNumber^[i] next⟩

theorem drawn_succ (kind : Kind) (next count : Nat) :
    drawn kind next (count + 1) = drawn kind next count ++ [⟨followingNumber^[count] next⟩] := by
  simp [drawn, List.range_succ]

theorem drawn_succ' (kind : Kind) (next count : Nat) :
    drawn kind next (count + 1) = ⟨next⟩ :: drawn kind (followingNumber next) count := by
  simp [drawn, List.range_succ_eq_map, Function.comp_def]

theorem followingNumber_lt (n : Nat) : followingNumber n < UInt64.size :=
  Nat.mod_lt _ (by decide)

theorem iterate_followingNumber (below : next < UInt64.size) (count : Nat) :
    followingNumber^[count] next = (next + count) % UInt64.size := by
  induction count with
  | zero => exact (Nat.mod_eq_of_lt below).symm
  | succ count ih =>
    rw [Function.iterate_succ_apply', ih, followingNumber, Nat.mod_add_mod, Nat.add_assoc]

/-- A counter that was drawn from fewer than 2⁶⁴ times and did not fall has not run over. -/
theorem iterate_followingNumber_of_le {count : Nat} (few : count < UInt64.size)
    (rises : next ≤ followingNumber^[count] next) (some : count ≠ 0) :
    followingNumber^[count] next = next + count ∧ next + count < UInt64.size := by
  obtain ⟨before, rfl⟩ := Nat.exists_eq_succ_of_ne_zero some
  have hlast : followingNumber^[before + 1] next < UInt64.size := by
    rw [Function.iterate_succ_apply']
    exact followingNumber_lt _
  have hvalue := iterate_followingNumber (Nat.lt_of_le_of_lt rises hlast) (before + 1)
  rw [Nat.succ_eq_add_one] at *
  simp only [UInt64.size] at *
  omega

theorem iterate_followingNumber_of_lt {count i : Nat} (few : count < UInt64.size)
    (rises : next ≤ followingNumber^[count] next) (hi : i < count) :
    followingNumber^[i] next = next + i := by
  obtain ⟨_, hsize⟩ := iterate_followingNumber_of_le few rises (Nat.ne_zero_of_lt hi)
  rw [iterate_followingNumber (by omega)]
  exact Nat.mod_eq_of_lt (by omega)

theorem pairwise_drawn {count : Nat} (fits : next + count ≤ UInt64.size) :
    (drawn kind next count).Pairwise (· < ·) := by
  have hvalue : ∀ i < count, followingNumber^[i] next = next + i := by
    intro i hi
    rw [iterate_followingNumber (by omega)]
    exact Nat.mod_eq_of_lt (by omega)
  refine List.pairwise_map.mpr (List.pairwise_lt_range.imp_of_mem fun {i j} hi hj hlt => ?_)
  show followingNumber^[i] next < followingNumber^[j] next
  rw [hvalue i (List.mem_range.mp hi), hvalue j (List.mem_range.mp hj)]
  omega

/-! ## What was drawn -/

/-- Identifiers in the order in which they were drawn, from a counter that is now at `next`. -/
structure AreNumbered (next : Nat) (ids : List (Identifier kind)) : Prop where
  ascend : ids.Pairwise (· < ·)
  below : ∀ id ∈ ids, id.number < next
  /-- None is the last number, after which a counter would start over. -/
  notLast : ∀ id ∈ ids, id.number + 1 < UInt64.size

namespace AreNumbered

variable {ids after : List (Identifier kind)}

theorem nil : AreNumbered next ([] : List (Identifier kind)) := ⟨.nil, nofun, nofun⟩

theorem mono (h : AreNumbered next ids) (rises : next ≤ next') : AreNumbered next' ids :=
  ⟨h.ascend, fun id hid => Nat.lt_of_lt_of_le (h.below id hid) rises, h.notLast⟩

theorem lower (h : AreNumbered next ids) (below : ∀ id ∈ ids, id.number < next') :
    AreNumbered next' ids :=
  ⟨h.ascend, below, h.notLast⟩

theorem sublist (h : AreNumbered next ids) (fewer : after.Sublist ids) : AreNumbered next after :=
  ⟨h.ascend.sublist fewer, fun id hid => h.below id (fewer.subset hid),
    fun id hid => h.notLast id (fewer.subset hid)⟩

theorem nodup (h : AreNumbered next ids) : ids.Nodup := by
  refine h.ascend.imp fun {a b} hlt heq => ?_
  rw [heq] at hlt
  exact Nat.lt_irrefl _ hlt

theorem length_lt (h : AreNumbered next ids) : ids.length < UInt64.size := by
  have hnumbers : (ids.map (·.number)).Nodup :=
    List.pairwise_map.mpr (h.ascend.imp fun hlt => Nat.ne_of_lt hlt)
  have hsub : ids.map (·.number) ⊆ List.range (UInt64.size - 1) := by
    intro n hn
    obtain ⟨id, hid, rfl⟩ := List.mem_map.mp hn
    have hnotLast := h.notLast id hid
    exact List.mem_range.mpr (by omega)
  have hlength := (hnumbers.subperm hsub).length_le
  rw [List.length_map, List.length_range] at hlength
  have hsize : 0 < UInt64.size := by decide
  omega

end AreNumbered

theorem areNumbered_drawn {count : Nat} (few : count < UInt64.size)
    (rises : next ≤ followingNumber^[count] next) :
    AreNumbered (followingNumber^[count] next) (drawn kind next count) ∧
      ∀ id ∈ drawn kind next count, next ≤ id.number := by
  by_cases hnone : count = 0
  · subst hnone
    exact ⟨.nil, nofun⟩
  obtain ⟨hend, hsize⟩ := iterate_followingNumber_of_le few rises hnone
  have hvalue : ∀ i < count, followingNumber^[i] next = next + i := fun i hi =>
    iterate_followingNumber_of_lt few rises hi
  have hmem : ∀ id ∈ drawn kind next count, ∃ i < count, id.number = next + i := by
    intro id hid
    obtain ⟨i, hi, rfl⟩ := List.mem_map.mp hid
    exact ⟨i, List.mem_range.mp hi, hvalue i (List.mem_range.mp hi)⟩
  rw [hend]
  refine ⟨⟨?_, ?_, ?_⟩, ?_⟩
  · exact pairwise_drawn (Nat.le_of_lt hsize)
  · intro id hid
    obtain ⟨i, hi, hnumber⟩ := hmem id hid
    omega
  · intro id hid
    obtain ⟨i, hi, hnumber⟩ := hmem id hid
    omega
  · intro id hid
    obtain ⟨i, hi, hnumber⟩ := hmem id hid
    omega

/-! ## What is drawn next -/

/-- Some identifiers may be given up, and at most `most` are drawn and put at the end. -/
def Advances (most : Nat) (next : Nat) (ids : List (Identifier kind)) (next' : Nat)
    (after : List (Identifier kind)) : Prop :=
  ∃ (kept : List (Identifier kind)) (count : Nat), kept.Sublist ids ∧ count ≤ most ∧
    next' = followingNumber^[count] next ∧ after = kept ++ drawn kind next count

namespace Advances

variable {most : Nat} {ids after : List (Identifier kind)}

theorem of_sublist (fewer : after.Sublist ids) : Advances most next ids next after :=
  ⟨after, 0, fewer, Nat.zero_le _, rfl, by simp [drawn]⟩

theorem areNumbered (h : Advances most next ids next' after) (few : most < UInt64.size)
    (rises : next ≤ next') (before : AreNumbered next ids) : AreNumbered next' after := by
  obtain ⟨kept, count, hkept, hcount, rfl, rfl⟩ := h
  obtain ⟨hdrawn, hfrom⟩ := areNumbered_drawn (Nat.lt_of_le_of_lt hcount few) rises
  have hbefore := (before.sublist hkept)
  refine ⟨List.pairwise_append.mpr ⟨hbefore.ascend, hdrawn.ascend, fun a ha b hb => ?_⟩, ?_, ?_⟩
  · exact Nat.lt_of_lt_of_le (hbefore.below a ha) (hfrom b hb)
  · intro id hid
    rcases List.mem_append.mp hid with hid | hid
    · exact (hbefore.mono rises).below id hid
    · exact hdrawn.below id hid
  · intro id hid
    rcases List.mem_append.mp hid with hid | hid
    · exact hbefore.notLast id hid
    · exact hdrawn.notLast id hid

theorem old_or_new (h : Advances most next ids next' after) (few : most < UInt64.size)
    (rises : next ≤ next') : ∀ id ∈ after, id ∈ ids ∨ next ≤ id.number := by
  obtain ⟨kept, count, hkept, hcount, rfl, rfl⟩ := h
  intro id hid
  rcases List.mem_append.mp hid with hid | hid
  · exact .inl (hkept.subset hid)
  · exact .inr ((areNumbered_drawn (Nat.lt_of_le_of_lt hcount few) rises).2 id hid)

end Advances

/-! ## In several places -/

/-- Identifiers that were drawn from one counter and went to several places. -/
structure AreNumberedApart {α : Type} (ids : α → List (Identifier kind)) (next : Nat)
    (xs : List α) : Prop where
  each : ∀ x ∈ xs, AreNumbered next (ids x)
  apart : xs.Pairwise fun x y => (ids x).Disjoint (ids y)

namespace AreNumberedApart

variable {α : Type} {ids : α → List (Identifier kind)} {xs : List α} {x y : α}

theorem mono (h : AreNumberedApart ids next xs) (rises : next ≤ next') :
    AreNumberedApart ids next' xs :=
  ⟨fun x hx => (h.each x hx).mono rises, h.apart⟩

theorem lower (h : AreNumberedApart ids next xs)
    (below : ∀ x ∈ xs, ∀ id ∈ ids x, id.number < next') : AreNumberedApart ids next' xs :=
  ⟨fun x hx => (h.each x hx).lower (below x hx), h.apart⟩

theorem nodup (h : AreNumberedApart ids next xs) : (xs.flatMap ids).Nodup :=
  List.nodup_flatMap.mpr ⟨fun x hx => (h.each x hx).nodup, h.apart⟩

theorem append (h : AreNumberedApart ids next xs) (rises : next ≤ next')
    (numbered : AreNumbered next' (ids x)) (new : ∀ id ∈ ids x, next ≤ id.number) :
    AreNumberedApart ids next' (xs ++ [x]) where
  each y hy := by
    rcases List.mem_append.mp hy with hy | hy
    · exact (h.each y hy).mono rises
    · rw [List.mem_singleton.mp hy]
      exact numbered
  apart := by
    refine List.pairwise_append.mpr ⟨h.apart, List.pairwise_singleton .., fun y hy z hz => ?_⟩
    rw [List.mem_singleton.mp hz]
    intro id hy' hx
    exact Nat.not_lt.mpr (new id hx) ((h.each y hy).below id hy')

theorem advance {test : α → Bool} {most : Nat} (h : AreNumberedApart ids next xs)
    (finds : xs.find? test = some x) (advances : Advances most next (ids x) next' (ids y))
    (few : most < UInt64.size) (rises : next ≤ next') :
    AreNumberedApart ids next' (updateFirst test (fun _ => y) xs) where
  each z hz := by
    rcases mem_updateFirst hz with hz | ⟨_, _, rfl⟩
    · exact (h.each z hz).mono rises
    · exact advances.areNumbered few rises (h.each x (List.mem_of_find?_eq_some finds))
  apart := by
    have hnew : ∀ z ∈ xs, ∀ id ∈ ids z, id ∈ ids y → id ∈ ids x := by
      intro z hz id hid hy
      rcases advances.old_or_new few rises id hy with hold | hnew
      · exact hold
      · exact absurd ((h.each z hz).below id hid) (Nat.not_lt.mpr hnew)
    refine pairwise_updateFirst h.apart finds ?_ ?_
    · exact fun z hz hapart id hid hy => hapart hid (hnew z hz id hid hy)
    · exact fun z hz hapart id hy hid => hapart (hnew z hz id hid hy) hid

end AreNumberedApart

end BuyingClub
