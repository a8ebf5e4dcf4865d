import BuyingClub.Proofs.Store.Requests

/-!
# The log of a store

Any number of clients put their requests to a store, in any order. Every accepted write counts the
version of its run up, so a write that names the version its client has loaded replaces just what
was loaded: no update is lost.
-/

namespace BuyingClub

/-! ## Requests and what comes of them -/

namespace Store

inductive Request where
  | insert (book : OrderBook)
  | load (id : RunId)
  | commit (book : OrderBook) (version : Nat) (stage : Stage)
  | moveStage (id : RunId) (expected new : Stage)

inductive Answer where
  | done
  | loaded (book : OrderBook)
  | moved (run : Run)

/-- A request that was put to the store, and its answer. -/
structure Entry where
  before : Store
  request : Request
  answer : Except Breakdown Answer
  after : Store

namespace Entry

variable (e : Entry)

def Inserts (id : RunId) : Prop :=
  ∃ book, e.request = .insert book ∧ book.run.id = id ∧ e.answer = .ok .done

def Loads (id : RunId) (book : OrderBook) : Prop :=
  e.request = .load id ∧ e.answer = .ok (.loaded book)

/-- A book is stored in the place of this version. -/
def Commits (id : RunId) (version : Nat) : Prop :=
  ∃ book stage, e.request = .commit book version stage ∧ book.run.id = id ∧ e.answer = .ok .done

def Moves (id : RunId) : Prop :=
  ∃ expected new run, e.request = .moveStage id expected new ∧ e.answer = .ok (.moved run)

def IsRejected : Prop := ∃ why, e.answer = .error why

end Entry

end Store

namespace Repository

def serve (request : Store.Request) (now : Instant) (r : Repository) :
    Except Breakdown Store.Answer × Repository :=
  match request with
  | .insert book => (insert book now r).map (·.map fun _ => .done) id
  | .load run => (load run now r).map (·.map .loaded) id
  | .commit book version stage =>
    (commit book version stage now r).map (·.map fun _ => .done) id
  | .moveStage run expected new => (moveStage run expected new now r).map (·.map .moved) id

/-- What is put to the repository over time, one request after the other. -/
def log : List (Store.Request × Instant) → Repository → List Store.Entry
  | [], _ => []
  | (request, now) :: rest, r =>
    ⟨r.store, request, (r.serve request now).1, (r.serve request now).2.store⟩ ::
      log rest (r.serve request now).2

end Repository

/-! ## Single requests -/

namespace Store

/-- All that a request can come to. -/
inductive Serves (store : Store) : Request → Except Breakdown Answer → Store → Prop
  | inserted {book : OrderBook} (fresh : store.find? book.run.id = none) :
      Serves store (.insert book) (.ok .done) ⟨store.books ++ [book]⟩
  | loaded {id : RunId} {book : OrderBook} (finds : store.find? id = some book) :
      Serves store (.load id) (.ok (.loaded book)) store
  | committed {book current : OrderBook} {version : Nat} {stage : Stage}
      (finds : store.find? book.run.id = some current) (isVersion : current.run.version = version)
      (isStage : current.run.stage = stage) :
      Serves store (.commit book version stage) (.ok .done)
        (store.replace { book with run.version := version + 1 })
  | moved {id : RunId} {current : OrderBook} {run : Run} {expected new : Stage} {now : Instant}
      (finds : store.find? id = some current) (isStage : current.run.stage = expected)
      (enters : run = { current.run.enter new now with version := current.run.version + 1 }) :
      Serves store (.moveStage id expected new) (.ok (.moved run))
        (store.replace { current with run })
  | rejected {request : Request} {why : Breakdown} : Serves store request (.error why) store

end Store

namespace Repository

variable {r : Repository}

theorem ask_serves {α : Type} {method : Method} {run : Option RunId} {now : Instant}
    {what : Store → Except StoreRefusal (α × Store)} {request : Store.Request}
    {f : α → Store.Answer} (h : r.IsUnraced)
    (accepted : ∀ a after, what r.store = .ok (a, after) →
      r.store.Serves request (.ok (f a)) after) :
    (ask method run now what r).2.IsUnraced ∧
      r.store.Serves request ((ask method run now what r).1.map f)
        (ask method run now what r).2.store := by
  obtain ⟨hunraced, ⟨a, hanswer, hstore⟩ | ⟨why, hanswer, hstore⟩⟩ :=
    ask_cases method run now what h
  · rw [hanswer]
    exact ⟨hunraced, accepted a _ hstore⟩
  · rw [hanswer, hstore]
    exact ⟨hunraced, .rejected⟩

theorem serve_serves (h : r.IsUnraced) (request : Store.Request) (now : Instant) :
    (r.serve request now).2.IsUnraced ∧
      r.store.Serves request (r.serve request now).1 (r.serve request now).2.store := by
  cases request with
  | insert book =>
    refine ask_serves h fun _ after hanswer => ?_
    obtain ⟨store, hinsert, heq⟩ := map_eq_ok_iff.mp hanswer
    obtain ⟨fresh, rfl⟩ := Store.insert_eq_ok_iff.mp hinsert
    cases heq
    exact .inserted fresh
  | load id =>
    refine ask_serves h fun _ after hanswer => ?_
    obtain ⟨book, hload, heq⟩ := map_eq_ok_iff.mp hanswer
    cases heq
    exact .loaded (Store.load_eq_ok_iff.mp hload)
  | commit book version stage =>
    refine ask_serves h fun _ after hanswer => ?_
    obtain ⟨store, hcommit, heq⟩ := map_eq_ok_iff.mp hanswer
    obtain ⟨current, finds, isVersion, isStage, rfl⟩ := Store.commit_eq_ok_iff.mp hcommit
    cases heq
    exact .committed finds isVersion isStage
  | moveStage id expected new =>
    refine ask_serves h fun run after hanswer => ?_
    obtain ⟨current, finds, isStage, enters, rfl⟩ := Store.moveStage_eq_ok_iff.mp hanswer
    exact .moved finds isStage enters

end Repository

/-! ## Versions grow -/

namespace Store

variable {store between after : Store} {request : Request} {answer : Except Breakdown Answer}
  {id : RunId}

/-- What is stored first is still stored later, or a greater version of the run is. -/
def Precedes (store after : Store) : Prop :=
  ∀ id book, store.find? id = some book →
    ∃ later, after.find? id = some later ∧ (later = book ∨ book.run.version < later.run.version)

theorem Precedes.refl (store : Store) : store.Precedes store :=
  fun _ book finds => ⟨book, finds, .inl rfl⟩

theorem Precedes.trans (h : store.Precedes between) (h' : between.Precedes after) :
    store.Precedes after := by
  intro id book finds
  obtain ⟨next, hnext, rfl | hgreater⟩ := h id book finds
  · exact h' id next hnext
  · obtain ⟨later, hlater, rfl | hgreater'⟩ := h' id next hnext
    · exact ⟨later, hlater, .inr hgreater⟩
    · exact ⟨later, hlater, .inr (hgreater.trans hgreater')⟩

theorem Precedes.version_le {book later : OrderBook} (h : store.Precedes after)
    (finds : store.find? id = some book) (findsLater : after.find? id = some later) :
    book.run.version ≤ later.run.version := by
  obtain ⟨found, hfound, hcases⟩ := h id book finds
  obtain rfl : found = later := Option.some.inj (hfound.symm.trans findsLater)
  rcases hcases with rfl | hgreater
  · exact Nat.le_refl _
  · exact Nat.le_of_lt hgreater

theorem Precedes.eq_of_version {book later : OrderBook} (h : store.Precedes after)
    (finds : store.find? id = some book) (findsLater : after.find? id = some later)
    (same : later.run.version = book.run.version) : later = book := by
  obtain ⟨found, hfound, hcases⟩ := h id book finds
  obtain rfl : found = later := Option.some.inj (hfound.symm.trans findsLater)
  rcases hcases with hsame | hgreater
  · exact hsame
  · exact absurd same.symm (Nat.ne_of_lt hgreater)

theorem precedes_replace {current book : OrderBook} (finds : store.find? book.run.id = some current)
    (greater : current.run.version < book.run.version) : store.Precedes (store.replace book) := by
  intro id old hold
  by_cases hid : id = book.run.id
  · subst hid
    obtain rfl : old = current := Option.some.inj (hold.symm.trans finds)
    exact ⟨book, find?_replace_self finds, .inr greater⟩
  · exact ⟨old, by rw [find?_replace_of_ne hid]; exact hold, .inl rfl⟩

theorem Serves.precedes (h : store.Serves request answer after) : store.Precedes after := by
  cases h with
  | @inserted book fresh =>
    intro id old hold
    have hid : id ≠ book.run.id := by
      rintro rfl
      rw [fresh] at hold
      cases hold
    exact ⟨old, by rw [find?_append_of_ne hid]; exact hold, .inl rfl⟩
  | loaded finds => exact .refl store
  | committed finds isVersion isStage => exact precedes_replace finds (by simp [isVersion])
  | moved finds isStage enters =>
    subst enters
    rw [← id_of_find? finds] at finds
    exact precedes_replace finds (Nat.lt_succ_self _)
  | rejected => exact .refl store

end Store

/-! ## Entries of the log -/

namespace Store.Entry

variable {e later : Entry} {id : RunId} {version : Nat} {book : OrderBook}

def IsSound (e : Entry) : Prop := e.before.Serves e.request e.answer e.after

theorem IsSound.of_inserts (h : e.IsSound) (inserts : e.Inserts id) :
    e.before.find? id = none ∧ ∃ book, e.after.find? id = some book := by
  obtain ⟨before, request, answer, after⟩ := e
  have hserves : before.Serves request answer after := h
  obtain ⟨book, rfl, rfl, rfl⟩ := inserts
  cases hserves with
  | inserted fresh => exact ⟨fresh, book, find?_append_self fresh⟩

theorem IsSound.of_loads (h : e.IsSound) (loads : e.Loads id book) :
    e.after.find? id = some book := by
  obtain ⟨before, request, answer, after⟩ := e
  have hserves : before.Serves request answer after := h
  obtain ⟨rfl, rfl⟩ := loads
  cases hserves with
  | loaded finds => exact finds

/-- A book of a run gives way to one that is one version on, and no other run is touched. -/
def CountsUp (e : Entry) (id : RunId) (version : Nat) : Prop :=
  (∃ old new, e.before.find? id = some old ∧ e.after.find? id = some new ∧
      old.run.version = version ∧ new.run.version = version + 1) ∧
    ∀ other, other ≠ id → e.after.find? other = e.before.find? other

theorem IsSound.of_commits (h : e.IsSound) (commits : e.Commits id version) :
    e.CountsUp id version := by
  obtain ⟨before, request, answer, after⟩ := e
  have hserves : before.Serves request answer after := h
  obtain ⟨book, stage, rfl, rfl, rfl⟩ := commits
  cases hserves with
  | @committed _ current _ _ finds isVersion isStage =>
    exact ⟨⟨current, _, finds, find?_replace_self finds, isVersion, rfl⟩,
      fun other hother => find?_replace_of_ne hother⟩

theorem IsSound.of_moves (h : e.IsSound) (moves : e.Moves id) :
    ∃ version, e.CountsUp id version := by
  obtain ⟨before, request, answer, after⟩ := e
  have hserves : before.Serves request answer after := h
  obtain ⟨expected, new, run, rfl, rfl⟩ := moves
  cases hserves with
  | @moved _ current _ _ _ _ finds isStage enters =>
    obtain rfl := id_of_find? finds
    subst enters
    exact ⟨current.run.version, ⟨current, _, finds, find?_replace_self finds, rfl, rfl⟩,
      fun other hother => find?_replace_of_ne hother⟩

theorem IsSound.of_isRejected (h : e.IsSound) (rejected : e.IsRejected) : e.after = e.before := by
  obtain ⟨before, request, answer, after⟩ := e
  have hserves : before.Serves request answer after := h
  obtain ⟨why, rfl⟩ := rejected
  cases hserves with
  | rejected => rfl

end Store.Entry

namespace Repository

variable {r : Repository}

theorem log_isSound (h : r.IsUnraced) (requests : List (Store.Request × Instant)) :
    ∀ e ∈ r.log requests, e.IsSound := by
  induction requests generalizing r with
  | nil => exact fun e he => (List.not_mem_nil he).elim
  | cons first rest ih =>
    obtain ⟨request, now⟩ := first
    obtain ⟨hunraced, hserves⟩ := serve_serves h request now
    intro e he
    rcases List.mem_cons.mp he with rfl | he
    · exact hserves
    · exact ih hunraced e he

theorem log_precedes (h : r.IsUnraced) (requests : List (Store.Request × Instant)) :
    ∀ e ∈ r.log requests, r.store.Precedes e.before := by
  induction requests generalizing r with
  | nil => exact fun e he => (List.not_mem_nil he).elim
  | cons first rest ih =>
    obtain ⟨request, now⟩ := first
    obtain ⟨hunraced, hserves⟩ := serve_serves h request now
    intro e he
    rcases List.mem_cons.mp he with rfl | he
    · exact .refl _
    · exact hserves.precedes.trans (ih hunraced e he)

theorem log_pairwise (h : r.IsUnraced) (requests : List (Store.Request × Instant)) :
    (r.log requests).Pairwise fun e later =>
      e.IsSound ∧ later.IsSound ∧ e.after.Precedes later.before := by
  induction requests generalizing r with
  | nil => exact .nil
  | cons first rest ih =>
    obtain ⟨request, now⟩ := first
    obtain ⟨hunraced, hserves⟩ := serve_serves h request now
    refine List.pairwise_cons.mpr ⟨fun later hlater => ⟨hserves, ?_, ?_⟩, ih hunraced⟩
    · exact log_isSound hunraced rest later hlater
    · exact log_precedes hunraced rest later hlater

end Repository

/-- Let any number of clients put requests to a repository, in any order. A run is inserted at most
once. A commit or a move that is accepted counts the version of its run up by one and touches no
other run, and what is rejected leaves every run as it is. So a commit in the place of a version
that a client has loaded replaces just what was loaded, and no version is replaced by two
commits. -/
theorem no_lost_update {r : Repository} (h : r.IsUnraced)
    (requests : List (Store.Request × Instant)) :
    ((r.log requests).Pairwise fun e later => ∀ id, ¬ (e.Inserts id ∧ later.Inserts id)) ∧
      (∀ e ∈ r.log requests, ∀ id, (e.Moves id ∨ ∃ version, e.Commits id version) →
        ∃ version, e.CountsUp id version) ∧
      (∀ e ∈ r.log requests, e.IsRejected → ∀ id, e.after.find? id = e.before.find? id) ∧
      ((r.log requests).Pairwise fun e later => ∀ id book, e.Loads id book →
        later.Commits id book.run.version → later.before.find? id = some book) ∧
      (r.log requests).Pairwise fun e later => ∀ id version,
        ¬ (e.Commits id version ∧ later.Commits id version) := by
  have hsound := Repository.log_isSound h requests
  have hpairs := Repository.log_pairwise h requests
  refine ⟨hpairs.imp ?_, fun e he id haccepted => ?_, fun e he hrejected id => ?_, hpairs.imp ?_,
    hpairs.imp ?_⟩
  · rintro e later ⟨hfirst, hlater, hprecedes⟩ id ⟨hinserts, hinsertsLater⟩
    obtain ⟨_, book, hstored⟩ := hfirst.of_inserts hinserts
    obtain ⟨found, hfound, _⟩ := hprecedes id book hstored
    rw [(hlater.of_inserts hinsertsLater).1] at hfound
    cases hfound
  · rcases haccepted with hmoves | ⟨version, hcommits⟩
    · exact (hsound e he).of_moves hmoves
    · exact ⟨version, (hsound e he).of_commits hcommits⟩
  · rw [(hsound e he).of_isRejected hrejected]
  · rintro e later ⟨hfirst, hlater, hprecedes⟩ id book hloads hcommits
    obtain ⟨⟨old, _, hold, _, hversion, _⟩, _⟩ := hlater.of_commits hcommits
    rw [hold, hprecedes.eq_of_version (hfirst.of_loads hloads) hold hversion]
  · rintro e later ⟨hfirst, hlater, hprecedes⟩ id version ⟨hcommits, hcommitsLater⟩
    obtain ⟨⟨_, new, _, hnew, _, hcounted⟩, _⟩ := hfirst.of_commits hcommits
    obtain ⟨⟨old, _, hold, _, hversion, _⟩, _⟩ := hlater.of_commits hcommitsLater
    have hle := hprecedes.version_le hnew hold
    omega

/-- Two clients load a new run and commit in its place. The second commit is rejected. -/
theorem no_lost_update_by_two :
    ∃ requests : List (Store.Request × Instant),
      (((Repository.ofStore .empty).log requests).map (·.answer.isOk)) =
          [true, true, true, true, false] ∧
        ((Repository.ofStore .empty).log requests).Pairwise fun e later => ∀ id version,
          ¬ (e.Commits id version ∧ later.Commits id version) := by
  let now : Instant := .ofSeconds 0
  let book : OrderBook := .start (.start ⟨1⟩ ⟨1⟩ ⟨1⟩ now) (.join ⟨1⟩ ⟨1⟩ ⟨1⟩ true now)
  let requests : List (Store.Request × Instant) :=
    [(.insert book, now), (.load ⟨1⟩, now), (.load ⟨1⟩, now), (.commit book 0 .planning, now),
      (.commit book 0 .planning, now)]
  have hanswers : (((Repository.ofStore .empty).log requests).map (·.answer.isOk)) =
      [true, true, true, true, false] := by
    decide +kernel
  exact ⟨requests, hanswers,
    (no_lost_update (Repository.isUnraced_ofStore .empty) requests).2.2.2.2⟩

end BuyingClub
