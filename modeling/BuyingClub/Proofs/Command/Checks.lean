import BuyingClub.Command.Execution
import BuyingClub.Proofs.Results

/-!
# What commands check

When each check passes, and what a draft is after a move that the table of stages allows.
-/

namespace BuyingClub

variable {u : Unit}

theorem Stage.checkMove_eq_ok_iff {old new : Stage} :
    old.checkMove new = .ok u ↔ old.canMove new = true := by
  unfold Stage.checkMove
  split <;> simp [*]

theorem Stage.checkOpen_eq_ok_iff {stage : Stage} {operation : String} :
    stage.checkOpen operation = .ok u ↔ stage.isOpen = true := by
  unfold Stage.checkOpen
  split <;> simp [*]

theorem Stage.eq_shopping_of_canMove {stage : Stage} (h : stage.canMove .adjusting = true) :
    stage = .shopping := by
  cases stage <;> simp [canMove, next] at h ⊢

theorem Stage.eq_distributing_of_canMove {stage : Stage} (h : stage.canMove .completed = true) :
    stage = .distributing := by
  cases stage <;> simp [canMove, next] at h ⊢

theorem Stage.ne_of_canMove {old new : Stage} (h : old.canMove new = true) : new ≠ old := by
  rintro rfl
  cases new <;> simp [canMove, next] at h

theorem Stage.isTerminal_of_canMove {old new : Stage} (h : old.canMove new = true) :
    old.isTerminal = false := by
  cases old <;> simp [canMove, next, isTerminal] at h ⊢

theorem Limits.checkBid_eq_ok_iff {limits : Limits} {quantity : Quantity} :
    limits.checkBid quantity = .ok u ↔ 0 ≤ quantity ∧ quantity ≤ limits.maxBidQuantity := by
  unfold Limits.checkBid
  simp only [Quantity.le_def, Quantity.lt_def]
  split
  · simp only [reduceCtorEq, false_iff]
    omega
  · split
    · simp only [reduceCtorEq, false_iff]
      omega
    · simp only [true_iff]
      omega

namespace Draft

variable {d after : Draft} {user : UserId} {operation : String}

/-! ## Rights and conditions -/

theorem checkLeader_eq_ok_iff :
    d.checkLeader user operation = .ok u ↔ d.book.leader?.any (·.user = user) = true := by
  unfold checkLeader
  split <;> simp [*]

theorem checkShopper_eq_ok_iff :
    d.checkShopper user operation = .ok u ↔
      (d.book.participationOf? user).any (·.mayShop) = true := by
  unfold checkShopper
  split <;> simp [*]

theorem checkStage_eq_ok_iff {expected : Stage} :
    d.checkStage expected operation = .ok u ↔ d.stage = expected := by
  unfold checkStage
  split <;> simp [*]

theorem checkLive_eq_ok_iff : d.checkLive = .ok u ↔ d.stage.isTerminal = false := by
  unfold checkLive
  split <;> simp [*]

theorem participationOf_eq_ok_iff {p : Participation} :
    d.participationOf user = .ok p ↔ d.book.participationOf? user = some p := by
  unfold participationOf
  split <;> simp [*]

theorem itemFor_eq_ok_iff {product : ProductId} {item : ShoppingItem} :
    d.itemFor product = .ok item ↔ d.book.itemFor? product = some item := by
  unfold itemFor
  split <;> simp [*]

/-! ## Moves -/

/-- The draft in another stage. -/
def moved (d : Draft) (new : Stage) : Draft :=
  (d.setBook { d.book with run := d.book.run.enter new d.now }).record
    (.stageChanged d.stage new)

def movedIf (d : Draft) (condition : Bool) (new : Stage) : Draft :=
  if condition then d.moved new else d

theorem move_eq_ok_iff {new : Stage} :
    d.move new = .ok after ↔ d.stage.canMove new = true ∧ d.moved new = after := by
  simp only [move, checkMove, bind_eq_ok_iff, Stage.checkMove_eq_ok_iff, pure_eq_ok_iff, moved,
    exists_const]

theorem moveIf_eq_ok_iff {β : Type} {condition : Bool} {new : Stage}
    {next : Draft → Except Refusal β} {b : β} :
    (if condition = true then d.move new >>= next else pure d >>= next) = .ok b ↔
      (condition = true → d.stage.canMove new = true) ∧ next (d.movedIf condition new) = .ok b := by
  cases condition with
  | false => simp [movedIf]
  | true =>
    simp only [if_true, bind_eq_ok_iff, move_eq_ok_iff, true_implies, movedIf]
    constructor
    · rintro ⟨_, ⟨h, rfl⟩, hb⟩
      exact ⟨h, hb⟩
    · rintro ⟨h, hb⟩
      exact ⟨_, ⟨h, rfl⟩, hb⟩

end Draft

end BuyingClub
