import BuyingClub.Proofs.OrderBook.ByProduct

/-!
# How far a share is from what is due

In a shortage each committed bid but the last gets its share to the nearest hundredth, as long as
something remains, and the last gets what remains then. So the last one pays for the rounding of all
the others. It is carried along here as the difference between what remains and what is still due.
-/

namespace BuyingClub

/-! ## What remains -/

/-- After so many shares, what remains is what the rest should get of the purchase, but for half a
hundredth for each share. -/
structure RemainsFair (count : Nat) (purchased requested remaining rest : Int) : Prop where
  nonneg : 0 ≤ remaining
  low : 2 * (rest * purchased) - count * requested ≤ 2 * (remaining * requested)
  high : 2 * (remaining * requested) ≤ 2 * (rest * purchased) + count * (requested - 1)

theorem RemainsFair.step {count : Nat} {purchased requested remaining rest q : Int}
    (h : RemainsFair count purchased requested remaining (q + rest)) (hq : 0 ≤ q) (hrest : 0 ≤ rest)
    (hpurchased : 0 ≤ purchased) (hshort : purchased < requested) :
    RemainsFair (count + 1) purchased requested
      (remaining - min (roundDiv (q * purchased) requested) remaining) rest := by
  have hprod := Int.mul_nonneg hrest hpurchased
  obtain ⟨hlow, hhigh⟩ := roundDiv_near (Int.mul_nonneg hq hpurchased) (show 0 < requested by omega)
  obtain ⟨hnonneg, hlow', hhigh'⟩ := h
  rw [Int.add_mul] at hlow' hhigh'
  generalize roundDiv (q * purchased) requested = share at *
  by_cases hfits : share ≤ remaining
  · rw [Int.min_eq_left hfits]
    refine ⟨Int.sub_nonneg.mpr hfits, ?_, ?_⟩
    · rw [Int.sub_mul]
      push_cast
      rw [Int.add_mul, Int.one_mul]
      omega
    · rw [Int.sub_mul]
      push_cast
      rw [Int.add_mul, Int.one_mul]
      omega
  · -- The share takes all, since no more than what is due to it remains.
    have hless := Int.mul_le_mul_of_nonneg_right (show remaining ≤ share by omega)
      (show 0 ≤ requested by omega)
    have hcount : 0 ≤ ((count + 1 : Nat) : Int) * (requested - 1) :=
      Int.mul_nonneg (by omega) (by omega)
    rw [Int.min_eq_right (by omega), Int.sub_self]
    refine ⟨Int.le_refl 0, ?_, ?_⟩
    · rw [Int.zero_mul]
      push_cast
      rw [Int.add_mul, Int.one_mul]
      omega
    · rw [Int.zero_mul]
      omega

/-- A share is off by half a hundredth for itself and for each one before it, at most. -/
theorem RemainsFair.share_near {count : Nat} {purchased requested remaining rest q : Int}
    (h : RemainsFair count purchased requested remaining (q + rest)) (hq : 0 ≤ q) (hrest : 0 ≤ rest)
    (hpurchased : 0 ≤ purchased) (hshort : purchased < requested) :
    ((min (roundDiv (q * purchased) requested) remaining * requested -
      q * purchased).natAbs : Int) * 2 ≤ (count + 1) * requested := by
  have hprod := Int.mul_nonneg hrest hpurchased
  have hcount := Int.mul_nonneg (Int.natCast_nonneg count) (show 0 ≤ requested by omega)
  obtain ⟨hlow, hhigh⟩ := roundDiv_near (Int.mul_nonneg hq hpurchased) (show 0 < requested by omega)
  have hlow' := h.low
  rw [Int.add_mul] at hlow'
  rw [Int.add_mul, Int.one_mul]
  generalize roundDiv (q * purchased) requested = share at *
  by_cases hfits : share ≤ remaining
  · rw [Int.min_eq_left hfits]
    omega
  · have hless := Int.mul_le_mul_of_nonneg_right (show remaining ≤ share by omega)
      (show 0 ≤ requested by omega)
    rw [Int.min_eq_right (by omega)]
    omega

theorem RemainsFair.last_near {count : Nat} {purchased requested remaining q : Int}
    (h : RemainsFair count purchased requested remaining q) :
    ((remaining * requested - q * purchased).natAbs : Int) * 2 ≤ count * requested := by
  obtain ⟨_, hlow, hhigh⟩ := h
  rw [Int.mul_sub, Int.mul_one] at hhigh
  omega

theorem RemainsFair.last_le {count : Nat} {purchased requested remaining q : Int}
    (h : RemainsFair count purchased requested remaining q) (hq : 0 ≤ q)
    (hpurchased : 0 ≤ purchased) (hshort : purchased < requested) :
    2 * (remaining - q) ≤ (count - 1 : Nat) := by
  have hdue := Int.mul_le_mul_of_nonneg_left (Int.le_of_lt hshort) hq
  have hhigh := h.high
  by_contra hmore
  have hmul := Int.mul_le_mul_of_nonneg_right
    (show (count - 1 : Nat) + 1 ≤ 2 * (remaining - q) by omega) (show 0 ≤ requested by omega)
  rw [Int.mul_assoc, Int.sub_mul, Int.add_mul, Int.one_mul] at hmul
  rw [Int.mul_sub, Int.mul_one] at hhigh
  rcases Nat.eq_zero_or_pos count with rfl | hcount
  · simp at hmul hhigh
    omega
  · have hone : ((count - 1 : Nat) : Int) * requested = count * requested - requested := by
      rw [Int.ofNat_sub hcount, Int.sub_mul]
      simp
    omega

/-! ## Shares -/

/-- What was handed out for the bid. -/
def Bid.share (b : Bid) : Quantity := b.distributedQuantity.getD 0

/-- The bid has a share of so much for so much that was asked for, off by half a hundredth for each
other one at most. -/
structure Bid.HasFairShare (purchased requested : Quantity) (others : Nat) (b : Bid) : Prop where
  handedOut : b.distributedQuantity = some b.share
  nonneg : 0 ≤ b.share
  near : ((b.share.hundredths * requested.hundredths -
    b.quantity.hundredths * purchased.hundredths).natAbs : Int) * 2 ≤ others * requested.hundredths

/-- A shortage is shared fairly. All but the last get no more than they ask for, and the last gets
little more. -/
structure AreFairShares (purchased requested : Quantity) (others : Nat) (bids : List Bid) :
    Prop where
  each : ∀ b ∈ bids, b.HasFairShare purchased requested others
  most : ∀ b ∈ bids.dropLast, b.share ≤ b.quantity
  last : ∀ b ∈ bids.getLast?, 2 * (b.share - b.quantity).hundredths ≤ (others - 1 : Nat)

theorem Bid.HasFairShare.mono {b : Bid} {purchased requested : Quantity} {others others' : Nat}
    (h : b.HasFairShare purchased requested others) (hle : others ≤ others')
    (hrequested : 0 ≤ requested.hundredths) : b.HasFairShare purchased requested others' :=
  ⟨h.handedOut, h.nonneg, h.near.trans
    (Int.mul_le_mul_of_nonneg_right (Int.ofNat_le.mpr hle) hrequested)⟩

theorem AreFairShares.singleton {b : Bid} {purchased requested : Quantity} {others : Nat}
    (head : b.HasFairShare purchased requested others)
    (last : 2 * (b.share - b.quantity).hundredths ≤ (others - 1 : Nat)) :
    AreFairShares purchased requested others [b] where
  each c hc := by
    rw [List.mem_singleton.mp hc]
    exact head
  most := List.forall_mem_nil _
  last c hc := by
    rw [← Option.mem_some.mp hc]
    exact last

theorem AreFairShares.cons {b : Bid} {bids : List Bid} {purchased requested : Quantity}
    {others : Nat} (head : b.HasFairShare purchased requested others) (most : b.share ≤ b.quantity)
    (tail : AreFairShares purchased requested others bids) (more : bids ≠ []) :
    AreFairShares purchased requested others (b :: bids) where
  each := List.forall_mem_cons.mpr ⟨head, tail.each⟩
  most := by
    rw [List.dropLast_cons_of_ne_nil more]
    exact List.forall_mem_cons.mpr ⟨most, tail.most⟩
  last := by
    obtain ⟨c, rest, rfl⟩ := List.exists_cons_of_ne_nil more
    rw [List.getLast?_cons_cons]
    exact tail.last

section Prorate

variable {bought : Purchase} {requested remaining : Quantity} {b : Bid} {bids : List Bid}

theorem hundredths_shareOf (remaining : Quantity) (hq : 0 ≤ b.quantity)
    (hfits : FitsAmount b.quantity.hundredths) (hbought : 0 ≤ bought.quantity)
    (hshort : bought.quantity < requested) :
    (shareOf bought requested remaining false b).hundredths =
      min (roundDiv (b.quantity.hundredths * bought.quantity.hundredths) requested.hundredths)
        remaining.hundredths := by
  unfold shareOf
  rw [if_neg Bool.false_ne_true, Quantity.hundredths_min,
    (Quantity.hundredths_scale_of_lt hq hfits hbought hshort).1]

theorem shareOf_le_quantity (hq : 0 ≤ b.quantity) (hfits : FitsAmount b.quantity.hundredths)
    (hbought : 0 ≤ bought.quantity) (hshort : bought.quantity < requested) :
    shareOf bought requested remaining false b ≤ b.quantity := by
  have hscale := (Quantity.hundredths_scale_of_lt hq hfits hbought hshort).2.2
  unfold shareOf
  rw [if_neg Bool.false_ne_true, Quantity.le_def, Quantity.hundredths_min]
  exact Int.le_trans (Int.min_le_left ..) hscale

theorem prorate_areFairShares {before others : Nat}
    (count : ∀ b ∈ bids, b.countsFor bought.product = true)
    (sound : ∀ b ∈ bids, 0 ≤ b.quantity ∧ FitsAmount b.quantity.hundredths)
    (hbought : 0 ≤ bought.quantity) (hshort : bought.quantity < requested) (some : bids ≠ [])
    (fair : RemainsFair before bought.quantity.hundredths requested.hundredths remaining.hundredths
      (committedTotal bids bought.product))
    (length : before + bids.length = others + 1) :
    AreFairShares bought.quantity requested others (prorate bought requested remaining bids) := by
  have hpurchased : 0 ≤ bought.quantity.hundredths := hbought
  have hrequested : bought.quantity.hundredths < requested.hundredths := hshort
  induction bids generalizing before remaining with
  | nil => exact absurd rfl some
  | cons b rest ih =>
    obtain ⟨hb, hrest⟩ := List.forall_mem_cons.mp count
    obtain ⟨⟨hq, hfits⟩, hsound⟩ := List.forall_mem_cons.mp sound
    have htotal : committedTotal (b :: rest) bought.product =
        b.quantity.hundredths + committedTotal rest bought.product := by
      unfold committedTotal
      rw [List.map_cons, List.sum_cons, Bid.towards_of_countsFor hb]
    rw [htotal] at fair
    unfold prorate
    rw [if_pos hb]
    dsimp only
    rcases rest with _ | ⟨next, later⟩
    · -- The last one gets what remains.
      obtain rfl : before = others := Nat.succ.inj length
      have hfair : RemainsFair before bought.quantity.hundredths requested.hundredths
          remaining.hundredths b.quantity.hundredths := by
        rwa [show committedTotal [] bought.product = 0 from rfl, Int.add_zero] at fair
      exact .singleton ⟨rfl, fair.nonneg, hfair.last_near⟩
        (hfair.last_le hq hpurchased hrequested)
    · have hany : (next :: later).any (·.countsFor bought.product) = true :=
        List.any_eq_true.mpr ⟨next, List.mem_cons_self .., hrest next (List.mem_cons_self ..)⟩
      have hshare := hundredths_shareOf remaining hq hfits hbought hshort
      have htotal' : 0 ≤ committedTotal (next :: later) bought.product :=
        committedTotal_nonneg (fun c hc => (hsound c hc).1) _
      rw [List.length_cons, List.length_cons] at length
      rw [hany, Bool.not_true]
      refine .cons ?_ (shareOf_le_quantity hq hfits hbought hshort)
        (@ih _ (before + 1) hrest hsound (List.cons_ne_nil _ _) ?_ ?_) ?_
      · have hnear := fair.share_near hq htotal' hpurchased hrequested
        rw [← hshare] at hnear
        have hfair : (b.handedOut (shareOf bought requested remaining false b)
            bought.price).HasFairShare bought.quantity requested (before + 1) :=
          ⟨rfl, shareOf_nonneg false hq hfits hbought hshort fair.nonneg, by exact_mod_cast hnear⟩
        exact hfair.mono (by omega) (by omega)
      · rw [Quantity.hundredths_sub, hshare]
        exact fair.step hq htotal' hpurchased hrequested
      · rw [List.length_cons]
        omega
      · intro hnone
        have hlength := congrArg List.length (congrArg (List.map (·.id)) hnone)
        rw [map_prorate (·.id) fun _ _ _ => rfl] at hlength
        cases hlength

end Prorate

/-! ## In the whole handout -/

namespace OrderBook

variable {bought : Purchase} {purchases : List Purchase} {book : OrderBook}

theorem handOutAll_filter_of_short (leader : ParticipationId) (now : Instant) (counters : Counters)
    (distinct : (purchases.map (·.product)).Nodup) (hbought : bought ∈ purchases)
    (hshort : bought.quantity < book.demand bought.product) :
    (handOutAll leader now purchases book counters).2.1.bids.filter (·.countsFor bought.product) =
      prorate bought (book.demand bought.product) bought.quantity
        (book.bids.filter (·.countsFor bought.product)) := by
  have hfilter (bids : List Bid) : (bids.filter (·.product = bought.product)).filter
      (·.countsFor bought.product) = bids.filter (·.countsFor bought.product) := by
    rw [List.filter_filter]
    refine List.filter_congr fun b _ => ?_
    cases hb : b.countsFor bought.product with
    | true => simp [Bid.product_of_countsFor hb]
    | false => rfl
  obtain ⟨counters', hbids⟩ := handOutAll_bidsFor leader now book counters distinct hbought
  rw [← hfilter]
  refine (congrArg (List.filter (·.countsFor bought.product)) hbids).trans ?_
  unfold handOutProduct
  rw [demand_bidsFor]
  dsimp only
  rw [if_pos hshort]
  refine (filter_prorate (fun _ _ _ => rfl) fun _ hb => hb).trans ?_
  unfold bidsFor
  rw [hfilter]

theorem handOutAll_areFairShares (leader : ParticipationId) (now : Instant) (counters : Counters)
    (distinct : (purchases.map (·.product)).Nodup) (hbought : bought ∈ purchases)
    (hnonneg : 0 ≤ bought.quantity) (hshort : bought.quantity < book.demand bought.product)
    (sound : ∀ b ∈ book.bids, b.countsFor bought.product = true →
      0 ≤ b.quantity ∧ FitsAmount b.quantity.hundredths) :
    AreFairShares bought.quantity (book.demand bought.product)
      ((book.bids.filter (·.countsFor bought.product)).length - 1)
      ((handOutAll leader now purchases book counters).2.1.bids.filter
        (·.countsFor bought.product)) := by
  rw [handOutAll_filter_of_short leader now counters distinct hbought hshort]
  have htotal : committedTotal (book.bids.filter (·.countsFor bought.product)) bought.product =
      (book.demand bought.product).hundredths := by
    rw [committedTotal_filter, hundredths_demand]
  have hsome : book.bids.filter (·.countsFor bought.product) ≠ [] := by
    intro hnone
    rw [Quantity.lt_def, ← htotal, hnone] at hshort
    exact absurd hshort (Int.not_lt.mpr hnonneg)
  have hlength := List.length_pos_of_ne_nil hsome
  refine @prorate_areFairShares _ _ _ _ 0 _ (fun b hb => (List.mem_filter.mp hb).2)
    (fun b hb => ?_) hnonneg hshort hsome ⟨hnonneg, ?_, ?_⟩ (by omega)
  · exact sound b (List.mem_filter.mp hb).1 (List.mem_filter.mp hb).2
  · rw [htotal, Int.mul_comm (book.demand bought.product).hundredths]
    simp
  · rw [htotal, Int.mul_comm (book.demand bought.product).hundredths]
    simp

end OrderBook

end BuyingClub
