import BuyingClub.Proofs.Results
import BuyingClub.Proofs.Updates
import BuyingClub.Store.Repository

/-!
# What requests to the store do

First the store by itself, then the repository as long as nobody else writes: a request is answered
by the store as it is, or it fails and the store stays.
-/

namespace BuyingClub

/-! ## The store -/

namespace Store

variable {store after : Store} {book current found : OrderBook} {id : RunId} {run : Run}

theorem id_of_find? (h : store.find? id = some book) : book.run.id = id := by
  simpa using List.find?_some h

theorem mem_of_find? (h : store.find? id = some book) : book ∈ store.books :=
  List.mem_of_find?_eq_some h

theorem find?_replace_self (h : store.find? book.run.id = some current) :
    (store.replace book).find? book.run.id = some book := by
  unfold find? at h
  unfold find? replace
  rw [find?_updateFirst_self (by simp), h]
  rfl

theorem find?_replace_of_ne (h : id ≠ book.run.id) :
    (store.replace book).find? id = store.find? id := by
  unfold find? replace
  refine find?_updateFirst_of_ne ?_ (by simp [h.symm])
  intro b hb
  simp only [decide_eq_true_eq] at hb
  simp [hb, h.symm]

theorem mem_replace (h : found ∈ (store.replace book).books) :
    found ∈ store.books ∨ found = book := by
  rcases mem_updateFirst h with h | ⟨_, _, rfl⟩
  · exact .inl h
  · exact .inr rfl

theorem find?_append_self (h : store.find? book.run.id = none) :
    (Store.mk (store.books ++ [book])).find? book.run.id = some book := by
  unfold find? at h ⊢
  simp [List.find?_append, h]

theorem find?_append_of_ne (h : id ≠ book.run.id) :
    (Store.mk (store.books ++ [book])).find? id = store.find? id := by
  unfold find?
  simp [List.find?_append, h.symm]

theorem load_eq_ok_iff : store.load id = .ok book ↔ store.find? id = some book := by
  unfold load
  cases store.find? id <;> simp

theorem insert_eq_ok_iff :
    store.insert book = .ok after ↔
      store.find? book.run.id = none ∧ after = ⟨store.books ++ [book]⟩ := by
  unfold insert
  cases store.find? book.run.id <;> simp [eq_comm]

theorem checkVersion_eq_ok_iff {expected : Nat} {u : Unit} :
    checkVersion run expected = .ok u ↔ run.version = expected := by
  unfold checkVersion
  split <;> simp [*]

theorem checkStage_eq_ok_iff {expected : Stage} {u : Unit} :
    checkStage run expected = .ok u ↔ run.stage = expected := by
  unfold checkStage
  split <;> simp [*]

theorem commit_eq_ok_iff {version : Nat} {stage : Stage} :
    store.commit book version stage = .ok after ↔
      ∃ current, store.find? book.run.id = some current ∧ current.run.version = version ∧
        current.run.stage = stage ∧
        after = store.replace { book with run.version := version + 1 } := by
  simp only [commit, bind_eq_ok_iff, load_eq_ok_iff, checkVersion_eq_ok_iff,
    checkStage_eq_ok_iff, pure_eq_ok_iff, exists_const]
  exact exists_congr fun current => by rw [eq_comm (b := after)]

theorem moveStage_eq_ok_iff {expected new : Stage} {now : Instant} :
    store.moveStage id expected new now = .ok (run, after) ↔
      ∃ current, store.find? id = some current ∧ current.run.stage = expected ∧
        run = { current.run.enter new now with version := current.run.version + 1 } ∧
        after = store.replace { current with run } := by
  simp only [moveStage, bind_eq_ok_iff, load_eq_ok_iff, checkStage_eq_ok_iff, pure_eq_ok_iff,
    exists_const, Prod.mk.injEq]
  refine exists_congr fun current => and_congr_right fun _ => and_congr_right fun _ => ?_
  constructor
  · rintro ⟨rfl, rfl⟩
    exact ⟨rfl, rfl⟩
  · rintro ⟨rfl, rfl⟩
    exact ⟨rfl, rfl⟩

end Store

/-! ## The repository -/

namespace Repository

variable {α : Type} {r after : Repository} {method : Method} {run : Option RunId} {now : Instant}
  {request : Store → Except StoreRefusal (α × Store)} {a : α} {why : Breakdown}

/-- Nobody else writes: what befalls requests, if anything does, makes them fail. -/
def IsUnraced (r : Repository) : Prop :=
  ∀ d ∈ r.disturbances, ∀ stage, d.effect ≠ .race stage

theorem isUnraced_ofStore (store : Store) : (ofStore store).IsUnraced := by
  intro d hd
  cases hd

theorem takeEffect_of_isUnraced (method : Method) (h : r.IsUnraced) :
    (∀ stage, (takeEffect method r).1 ≠ some (.race stage)) ∧
      (takeEffect method r).2.IsUnraced ∧ (takeEffect method r).2.store = r.store := by
  unfold takeEffect
  cases hd : r.disturbances.find? (·.isPending method) with
  | none => exact ⟨by simp, h, rfl⟩
  | some d =>
    refine ⟨fun stage hs => ?_, fun d' hd' stage => ?_, rfl⟩
    · exact h d (List.mem_of_find?_eq_some hd) stage (by simpa using hs)
    · rcases mem_updateFirst hd' with hd' | ⟨old, hold, rfl⟩
      · exact h d' hd' stage
      · exact h old (List.mem_of_find?_eq_some hold) stage

theorem ask_cases (method : Method) (run : Option RunId) (now : Instant)
    (request : Store → Except StoreRefusal (α × Store)) (h : r.IsUnraced) :
    (ask method run now request r).2.IsUnraced ∧
      ((∃ a, (ask method run now request r).1 = .ok a ∧
          request r.store = .ok (a, (ask method run now request r).2.store)) ∨
        (∃ why, (ask method run now request r).1 = .error why ∧
          (ask method run now request r).2.store = r.store)) := by
  obtain ⟨hrace, hunraced, hstore⟩ := takeEffect_of_isUnraced method h
  unfold ask
  split
  · exact ⟨h, .inr ⟨_, rfl, rfl⟩⟩
  · split
    · rename_i he
      rw [he] at hunraced hstore
      exact ⟨hunraced, .inr ⟨_, rfl, hstore⟩⟩
    · rename_i he
      rw [he] at hunraced hstore
      exact ⟨hunraced, .inr ⟨_, rfl, hstore⟩⟩
    · rename_i he
      rw [he] at hrace
      exact absurd rfl (hrace _)
    · rename_i he
      rw [he] at hunraced hstore
      unfold ask.answer
      rw [hstore]
      split
      · rename_i hr
        exact ⟨hunraced, .inl ⟨_, rfl, hr⟩⟩
      · exact ⟨hunraced, .inr ⟨_, rfl, hstore⟩⟩

theorem ask_ok (h : r.IsUnraced) (hr : ask method run now request r = (.ok a, after)) :
    after.IsUnraced ∧ request r.store = .ok (a, after.store) := by
  have hc := ask_cases method run now request h
  rw [hr] at hc
  obtain ⟨hunraced, ⟨b, hb, hreq⟩ | ⟨why, hb, _⟩⟩ := hc
  · cases hb
    exact ⟨hunraced, hreq⟩
  · cases hb

theorem ask_error (h : r.IsUnraced) (hr : ask method run now request r = (.error why, after)) :
    after.IsUnraced ∧ after.store = r.store := by
  have hc := ask_cases method run now request h
  rw [hr] at hc
  obtain ⟨hunraced, ⟨b, hb, _⟩ | ⟨why, hb, hstore⟩⟩ := hc
  · cases hb
  · exact ⟨hunraced, hstore⟩

theorem ask_ofStore {store store' : Store} (h : request store = .ok (a, store')) :
    ask method run now request (ofStore store) = (.ok a, ofStore store') := by
  simp [ask, ask.answer, takeEffect, ofStore, h]

end Repository

end BuyingClub
