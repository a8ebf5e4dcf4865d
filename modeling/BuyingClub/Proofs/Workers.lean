import BuyingClub.Proofs.Endings
import BuyingClub.Proofs.Pickup
import BuyingClub.Service.Submission

/-!
# Who has a worker

While nothing befalls the repository, a run has a worker just if it can still go on and a command
was submitted for it, since it was created and since the service was last shut down.
-/

namespace BuyingClub

/-! ## At the desk -/

namespace Store

/-- Whether the run has ended or is not there. -/
def isOver (store : Store) (run : RunId) : Bool :=
  (store.find? run).all (·.run.stage.isTerminal)

theorem isOver_eq_false_iff {store : Store} {run : RunId} :
    store.isOver run = false ↔
      ∃ book, store.find? run = some book ∧ book.run.stage.isTerminal = false := by
  unfold isOver
  cases store.find? run <;> simp

end Store

theorem Repository.ask_ofStore_snd {α : Type} (method : Method) (run : Option RunId) (now : Instant)
    (request : Store → Except StoreRefusal (α × Store)) (store : Store) :
    ∃ after, (Repository.ask method run now request (.ofStore store)).2 = .ofStore after := by
  rcases hrequest : request store with why | ⟨a, after⟩
  · refine ⟨store, ?_⟩
    simp [Repository.ask, Repository.ask.answer, Repository.takeEffect, Repository.ofStore,
      hrequest]
  · exact ⟨after, congrArg Prod.snd (Repository.ask_ofStore hrequest)⟩

/-- Work that disturbs no requests. -/
def Work.IsCalm {α : Type} (task : Work α) : Prop :=
  ∀ desk : Desk, desk.IsUndisturbed → (task.on desk).2.IsUndisturbed

theorem Work.IsCalm.bind {α β : Type} {task : Work α} {next : α → Work β} (h : task.IsCalm)
    (rest : ∀ a, (next a).IsCalm) : (task >>= next).IsCalm := by
  intro desk hdesk
  have htask := h desk hdesk
  rw [Work.on_bind]
  rcases hresult : task.on desk with ⟨why | a, between⟩ <;> rw [hresult] at htask
  · exact htask
  · exact rest a between htask

namespace Desk

variable {terms : Terms} {desk after : Desk} {turn : Turn} {run other : RunId} {user : UserId}
  {command : Command} {now : Instant}

theorem IsUndisturbed.unraced (h : desk.IsUndisturbed) : desk.repository.IsUnraced := by
  rw [h.eq_ofStore]
  exact Repository.isUnraced_ofStore _

theorem on_loadFor (h : desk.IsUndisturbed) :
    ((loadFor terms run user now).on desk).2 = desk := by
  rw [h.eq_ofStore, loadFor_ofStore]

theorem on_pickupSheet (h : desk.IsUndisturbed) :
    ((pickupSheet terms run user now).on desk).2 = desk := by
  have hload : ((loadFor terms run user now).on desk).2 = desk := on_loadFor h
  rw [pickupSheet, Work.on_bind]
  rcases hloaded : (loadFor terms run user now).on desk with ⟨why | book, loaded⟩
  · rw [hloaded] at hload
    exact hload
  · rw [hloaded] at hload
    obtain rfl : loaded = desk := hload
    dsimp only
    split <;> rfl

theorem on_listRuns {group : GroupId} (h : desk.IsUndisturbed) :
    ((listRuns terms group user now).on desk).2 = desk := by
  rw [h.eq_ofStore, listRuns, Work.on_bind, on_checkMember]
  split <;> rename_i hcheck
  · split at hcheck <;> cases hcheck
    rfl
  · split at hcheck <;> cases hcheck
    rfl

theorem on_isRetired (h : desk.IsUndisturbed) :
    (isRetired run now).on desk = (.ok (desk.repository.store.isOver run), desk) := by
  rw [h.eq_ofStore, isRetired, Work.on_bind, Work.on_attempt]
  show _ = (Except.ok (desk.repository.store.isOver run), _)
  unfold Store.isOver
  cases finds : desk.repository.store.find? run with
  | none =>
    have hload : Repository.load run now (.ofStore desk.repository.store) =
        (.error (.refused (.unknown run)), .ofStore desk.repository.store) := by
      simp [Repository.load, Repository.ask, Repository.ask.answer, Repository.takeEffect,
        Repository.ofStore, Store.load, finds, Except.map]
    simp only [hload]
    rfl
  | some book =>
    have hload : Repository.load run now (.ofStore desk.repository.store) =
        (.ok book, .ofStore desk.repository.store) := by
      refine Repository.ask_ofStore ?_
      rw [Store.load_eq_ok_iff.mpr finds]
      rfl
    simp only [hload]
    rfl

theorem isCalm_request {α : Type} (method : Method) (run : Option RunId) (now : Instant)
    (ask : Store → Except StoreRefusal (α × Store)) :
    (request (Repository.ask method run now ask)).IsCalm := by
  intro desk h
  obtain ⟨after, hafter⟩ := Repository.ask_ofStore_snd method run now ask desk.repository.store
  rw [h.eq_ofStore, Work.on_request]
  dsimp only
  rcases hask : Repository.ask method run now ask (.ofStore desk.repository.store) with
    ⟨(why | _) | a, repository⟩
  all_goals
    rw [hask] at hafter
    subst hafter
    exact ⟨rfl, rfl⟩

theorem isCalm_createRun (group : GroupId) (market : StoreId) (leader : UserId) (now : Instant) :
    (createRun terms group market leader now).IsCalm := by
  unfold createRun
  refine .bind (fun desk h => ?_) fun _ => ?_
  · rw [on_checkMember]
    split <;> exact h
  split
  · exact fun _ h => h
  · refine .bind (fun _ h => h) fun run => .bind (fun _ h => h) fun participation => ?_
    have hinsert := isCalm_request .insert (some run) now fun store =>
      (store.insert (.start (.start run group market now)
        (.join participation run leader true now))).map ((), ·)
    exact .bind hinsert fun _ => .bind (fun _ h => h) fun _ _ h => h

theorem isCalm_handle (run : RunId) (command : Command) (now : Instant) :
    (handle terms run command now).IsCalm := by
  intro desk h
  rw [h.eq_ofStore, on_handle_ofStore]
  split
  · exact ⟨rfl, rfl⟩
  · split
    · split <;> exact ⟨rfl, rfl⟩
    · exact ⟨rfl, rfl⟩

theorem handle_ne_crashed (h : desk.IsUndisturbed) :
    ((handle terms run command now).on desk).1 ≠ .error .crashed := by
  rw [h.eq_ofStore, on_handle_ofStore]
  split
  · nofun
  · split
    · split <;> nofun
    · nofun

/-! ### What a turn does to the runs -/

theorem Took.nodup_runs (h : desk.Took terms turn after)
    (before : (desk.repository.store.books.map (·.run.id)).Nodup) :
    (after.repository.store.books.map (·.run.id)).Nodup := by
  cases h with
  | created fresh stores counts =>
    rw [stores, List.map_append]
    refine before.append (List.nodup_singleton _) (List.disjoint_singleton.mpr fun hmem => ?_)
    obtain ⟨book, hbook, hid⟩ := List.mem_map.mp hmem
    exact List.find?_eq_none.mp fresh book hbook (decide_eq_true hid)
  | @handled run command now book d reply _ finds outcome serves stores counts =>
    have hruns : (desk.repository.store.replace d.book).books.map (·.run.id) =
        desk.repository.store.books.map (·.run.id) := by
      obtain rfl : d.book.run.id = run := outcome.run_id.trans (Store.id_of_find? finds)
      exact map_updateFirst_of_find? (f := fun _ => d.book) (·.run.id) finds outcome.run_id
    rw [stores, hruns]
    exact before
  | resumed stores counts =>
    rw [stores]
    exact before
  | kept stores serves counts =>
    rw [stores]
    exact before

theorem Took.find?_of_create {group : GroupId} {store : StoreId} {leader : UserId}
    (h : desk.Took terms (.create group store leader now) after)
    (stored : (desk.repository.store.find? run).isSome = true) :
    after.repository.store.find? run = desk.repository.store.find? run := by
  cases h with
  | created fresh stores counts =>
    rw [stores]
    apply Store.find?_append_of_ne
    rintro rfl
    have hnone : (none : Option OrderBook).isSome = true := fresh ▸ stored
    cases hnone
  | kept stores serves counts => rw [stores]

theorem Took.find?_of_handle (h : desk.Took terms (.handle run command now) after) :
    (∀ other ≠ run,
        after.repository.store.find? other = desk.repository.store.find? other) ∧
      (after.repository.store.find? run).isSome = (desk.repository.store.find? run).isSome := by
  cases h with
  | @handled _ _ _ book d reply _ finds outcome serves stores counts =>
    refine ⟨fun other hother => ?_, ?_⟩
    · obtain rfl : d.book.run.id = run := outcome.run_id.trans (Store.id_of_find? finds)
      rw [stores]
      exact Store.find?_replace_of_ne hother
    · rw [stores, find?_stored outcome finds, finds]
      rfl
  | kept stores serves counts => exact ⟨fun _ _ => by rw [stores], by rw [stores]⟩

end Desk

/-! ## Calls -/

namespace Service

/-- What can be asked of a service, and that it is shut down. -/
inductive Call where
  | create (group : GroupId) (store : StoreId) (leader : UserId) (now : Instant)
  | submit (run : RunId) (command : Command) (now : Instant)
  | snapshot (run : RunId) (user : UserId) (now : Instant)
  | pickupSheet (run : RunId) (user : UserId) (now : Instant)
  | listRuns (group : GroupId) (user : UserId) (now : Instant)
  | shutdown

variable {s : Service} {run other : RunId} {command : Command} {now : Instant}
  {calls : List Call} {call : Call}

def take (s : Service) : Call → Service
  | .create group store leader now => (s.createRun group store leader now).2
  | .submit run command now => (s.submit run command now).2
  | .snapshot run user now => (s.snapshot run user now).2
  | .pickupSheet run user now => (s.pickupSheet run user now).2
  | .listRuns group user now => (s.listRuns group user now).2
  | .shutdown => s.shutdown.2

def takeAll (s : Service) (calls : List Call) : Service := calls.foldl take s

def isStored (s : Service) (run : RunId) : Bool := (s.desk.repository.store.find? run).isSome

/-- The run for which a call submits a command, if it does. -/
def Call.submitsFor? : Call → Option RunId
  | .submit run _ _ => some run
  | _ => none

def Call.isShutdown : Call → Bool
  | .shutdown => true
  | _ => false

/-- A command was submitted for the run when it was stored already, and the service was not shut
down since. -/
def Addressed (s : Service) (calls : List Call) (run : RunId) : Prop :=
  ∃ before call rest, calls = before ++ call :: rest ∧ call.submitsFor? = some run ∧
    (s.takeAll before).isStored run = true ∧ rest.all (!·.isShutdown) = true

theorem not_addressed_nil : ¬ s.Addressed [] run := by
  rintro ⟨before, _, _, heq, _⟩
  cases before <;> cases heq

theorem addressed_cons_iff :
    s.Addressed (call :: calls) run ↔
      (call.submitsFor? = some run ∧ s.isStored run = true ∧ calls.all (!·.isShutdown) = true) ∨
        (s.take call).Addressed calls run := by
  constructor
  · rintro ⟨before, submit, rest, heq, hsubmit, hstored, hrest⟩
    cases before with
    | nil =>
      obtain ⟨rfl, rfl⟩ := List.cons.inj heq
      exact .inl ⟨hsubmit, hstored, hrest⟩
    | cons first before =>
      obtain ⟨rfl, rfl⟩ := List.cons.inj heq
      exact .inr ⟨before, submit, rest, rfl, hsubmit, hstored, hrest⟩
  · rintro (⟨hsubmit, hstored, hrest⟩ | ⟨before, submit, rest, rfl, hsubmit, hstored, hrest⟩)
    · exact ⟨[], call, calls, rfl, hsubmit, hstored, hrest⟩
    · exact ⟨call :: before, submit, rest, rfl, hsubmit, hstored, hrest⟩

def decideAddressed (s : Service) (run : RunId) :
    (calls : List Call) → Decidable (s.Addressed calls run)
  | [] => .isFalse not_addressed_nil
  | call :: rest =>
    have := decideAddressed (s.take call) run rest
    decidable_of_iff' _ addressed_cons_iff

instance (run : RunId) : Decidable (s.Addressed calls run) := decideAddressed s run calls

theorem addressed_concat_iff :
    s.Addressed (calls ++ [call]) run ↔
      call.submitsFor? = some run ∧ (s.takeAll calls).isStored run = true ∨
        call.isShutdown = false ∧ s.Addressed calls run := by
  constructor
  · rintro ⟨before, submit, rest, heq, hsubmit, hstored, hrest⟩
    rcases List.eq_nil_or_concat rest with rfl | ⟨rest, last, rfl⟩
    · obtain ⟨rfl, hcall⟩ := List.append_inj' heq rfl
      obtain rfl := (List.cons.inj hcall).1
      exact .inl ⟨hsubmit, hstored⟩
    · rw [List.concat_eq_append] at heq hrest
      rw [← List.cons_append, ← List.append_assoc] at heq
      obtain ⟨rfl, hcall⟩ := List.append_inj' heq rfl
      obtain rfl := (List.cons.inj hcall).1
      rw [List.all_append, Bool.and_eq_true] at hrest
      exact .inr ⟨by simpa using hrest.2, before, submit, rest, rfl, hsubmit, hstored, hrest.1⟩
  · rintro (⟨hsubmit, hstored⟩ | ⟨hcall, before, submit, rest, rfl, hsubmit, hstored, hrest⟩)
    · exact ⟨calls, call, [], rfl, hsubmit, hstored, rfl⟩
    · refine ⟨before, submit, rest ++ [call], by simp, hsubmit, hstored, ?_⟩
      rw [List.all_append, hrest, List.all_cons, hcall]
      rfl

/-! ### One command -/

theorem attend_spec (h : s.desk.IsUndisturbed) :
    (s.attend run command now).2 =
        { s with desk := s.desk.take s.terms (.handle run command now) } ∧
      (s.attend run command now).1.course =
        if (s.desk.take s.terms (.handle run command now)).repository.store.isOver run then .leaves
        else .stays := by
  rcases hhandle : (Desk.handle s.terms run command now).on s.desk with ⟨(why | _) | reply, after⟩
  · have htake : s.desk.take s.terms (.handle run command now) = after := congrArg Prod.snd hhandle
    have hafter : after.IsUndisturbed := by
      rw [← htake]
      exact Desk.isCalm_handle run command now s.desk h
    have hretired : (Desk.isRetired run now).run.run after = _ := Desk.on_isRetired hafter
    have hhandle : (Desk.handle s.terms run command now).run.run s.desk = _ := hhandle
    rw [htake]
    simp only [attend, work, hhandle, hretired]
    exact ⟨trivial, trivial⟩
  · exact absurd (congrArg Prod.fst hhandle) (Desk.handle_ne_crashed h)
  · have htake : s.desk.take s.terms (.handle run command now) = after := congrArg Prod.snd hhandle
    obtain ⟨book, d, hhandled⟩ := Desk.handle_ok h.unraced hhandle
    have hfinds : after.repository.store.find? run = some d.book := by
      rw [hhandled.stores]
      exact Desk.find?_stored hhandled.outcome hhandled.finds
    have hover : after.repository.store.isOver run = reply.isFinal := by
      unfold Store.isOver
      rw [hfinds, hhandled.outcome.isFinal_eq]
      rfl
    have hhandle : (Desk.handle s.terms run command now).run.run s.desk = _ := hhandle
    rw [htake, hover]
    simp only [attend, work, hhandle]
    exact ⟨trivial, trivial⟩

theorem submit_spec (canHire : s.canHire = true) (h : s.desk.IsUndisturbed) :
    s.take (.submit run command now) =
      { s with
        desk := s.desk.take s.terms (.handle run command now)
        workers :=
          if (s.desk.take s.terms (.handle run command now)).repository.store.isOver run then
            ((s.engage run).dismiss run).workers
          else (s.engage run).workers } := by
  have hdesk : (s.engage run).desk = s.desk := by unfold engage; split <;> rfl
  have hterms : (s.engage run).terms = s.terms := by unfold engage; split <;> rfl
  have hundisturbed : (s.engage run).desk.IsUndisturbed := by
    rw [hdesk]
    exact h
  obtain ⟨hafter, hcourse⟩ := @attend_spec (s.engage run) run command now hundisturbed
  rw [hdesk, hterms] at hafter hcourse
  show (s.submit run command now).2 = _
  unfold submit
  rw [if_pos canHire]
  show ((s.engage run).attend run command now).2.follow run _ = _
  rw [hafter, hcourse]
  split <;> rfl

/-! ### Workers -/

theorem mem_dismiss_iff :
    other ∈ (s.dismiss run).workers.map (·.run) ↔ other ≠ run ∧ other ∈ s.workers.map (·.run) := by
  simp only [dismiss, List.mem_map, List.mem_filter, decide_eq_true_eq]
  constructor
  · rintro ⟨w, ⟨hw, hne⟩, rfl⟩
    exact ⟨hne, w, hw, rfl⟩
  · rintro ⟨hne, w, hw, rfl⟩
    exact ⟨w, ⟨hw, hne⟩, rfl⟩

/-- The runs have one worker each, and no worker crashed. -/
structure AreSound (workers : List Worker) : Prop where
  alive : ∀ w ∈ workers, w.isAlive = true
  distinct : (workers.map (·.run)).Nodup

theorem AreSound.dismiss (h : AreSound s.workers) (run : RunId) :
    AreSound (s.dismiss run).workers where
  alive w hw := h.alive w (List.mem_filter.mp hw).1
  distinct := h.distinct.sublist (List.filter_sublist.map _)

theorem AreSound.engage (h : AreSound s.workers) (run : RunId) :
    AreSound (s.engage run).workers := by
  unfold Service.engage
  split
  · exact h
  · have hdismissed := h.dismiss run
    constructor
    · intro w hw
      rcases List.mem_append.mp hw with hw | hw
      · exact hdismissed.alive w hw
      · rw [List.mem_singleton.mp hw]
    · rw [List.map_append]
      refine hdismissed.distinct.append (List.nodup_singleton _) (List.disjoint_singleton.mpr ?_)
      exact fun hmem => (mem_dismiss_iff.mp hmem).1 rfl

theorem mem_engage_iff :
    other ∈ (s.engage run).workers.map (·.run) ↔ other = run ∨ other ∈ s.workers.map (·.run) := by
  unfold engage
  split
  · rename_i hany
    obtain ⟨w, hw, hrun⟩ := List.any_eq_true.mp hany
    simp only [Bool.and_eq_true, decide_eq_true_eq] at hrun
    refine ⟨.inr, ?_⟩
    rintro (rfl | hmem)
    · rw [← hrun.1]
      exact List.mem_map_of_mem hw
    · exact hmem
  · rw [List.map_append, List.mem_append, mem_dismiss_iff, List.map_singleton, List.mem_singleton]
    by_cases hother : other = run <;> simp [hother]

/-! ### Who is staffed -/

/-- Just the runs that were addressed and are not over have a worker. -/
structure Staffs (s : Service) (addressed : RunId → Prop) : Prop where
  canHire : s.canHire = true
  undisturbed : s.desk.IsUndisturbed
  runs : (s.desk.repository.store.books.map (·.run.id)).Nodup
  workers : AreSound s.workers
  stored : ∀ run, addressed run → s.isStored run = true
  staffed : ∀ run, run ∈ s.workers.map (·.run) ↔
    addressed run ∧ s.desk.repository.store.isOver run = false

namespace Staffs

variable {addressed addressed' : RunId → Prop} {s₀ : Service}

theorem congr (h : s.Staffs addressed) (same : ∀ run, addressed' run ↔ addressed run) :
    s.Staffs addressed' := by
  obtain rfl : addressed' = addressed := funext fun run => propext (same run)
  exact h

theorem withDesk {desk : Desk} (h : s.Staffs addressed) (undisturbed : desk.IsUndisturbed)
    (runs : (desk.repository.store.books.map (·.run.id)).Nodup)
    (same : ∀ run, s.isStored run = true →
      desk.repository.store.find? run = s.desk.repository.store.find? run) :
    { s with desk }.Staffs addressed where
  canHire := h.canHire
  undisturbed := undisturbed
  runs := runs
  workers := h.workers
  stored run haddressed := by
    have hstored := h.stored run haddressed
    unfold isStored at hstored ⊢
    rw [same run hstored]
    exact hstored
  staffed run := by
    refine (h.staffed run).trans (and_congr_right fun haddressed => ?_)
    unfold Store.isOver
    rw [same run (h.stored run haddressed)]

theorem create (h : s.Staffs addressed) (group : GroupId) (store : StoreId) (leader : UserId)
    (now : Instant) : (s.take (.create group store leader now)).Staffs addressed := by
  have htook := (Desk.take_took s.terms h.undisturbed.unraced (.create group store leader now)).2
  refine h.withDesk (Desk.isCalm_createRun group store leader now s.desk h.undisturbed)
    (htook.nodup_runs h.runs) fun run hstored => ?_
  exact htook.find?_of_create hstored

theorem submit (h : s.Staffs addressed) (run : RunId) (command : Command) (now : Instant) :
    (s.take (.submit run command now)).Staffs fun other =>
      other = run ∧ s.isStored run = true ∨ addressed other := by
  have htook := (Desk.take_took s.terms h.undisturbed.unraced (.handle run command now)).2
  obtain ⟨hothers, hrun⟩ := htook.find?_of_handle
  have hundisturbed :
      ((Desk.handle s.terms run command now).on s.desk).2.IsUndisturbed :=
    Desk.isCalm_handle run command now s.desk h.undisturbed
  rw [submit_spec h.canHire h.undisturbed]
  generalize hdesk : s.desk.take s.terms (.handle run command now) = desk at *
  have hsame : ∀ other, s.isStored other = (desk.repository.store.find? other).isSome := by
    intro other
    by_cases hother : other = run
    · rw [hother, hrun]
      rfl
    · rw [hothers other hother]
      rfl
  refine ⟨h.canHire, ?_, htook.nodup_runs h.runs, ?_, fun other haddressed => ?_, fun other => ?_⟩
  · rw [← hdesk]
    exact hundisturbed
  · dsimp only
    split
    · exact (h.workers.engage run).dismiss run
    · exact h.workers.engage run
  · show (desk.repository.store.find? other).isSome = true
    rw [← hsame]
    rcases haddressed with ⟨rfl, hstored⟩ | haddressed
    · exact hstored
    · exact h.stored other haddressed
  · dsimp only
    by_cases hother : other = run
    · subst hother
      cases hover : desk.repository.store.isOver other with
      | true => simp [mem_dismiss_iff]
      | false =>
        obtain ⟨book, finds, _⟩ := Store.isOver_eq_false_iff.mp hover
        simp [mem_engage_iff, hsame, finds]
    · have hover : desk.repository.store.isOver other = s.desk.repository.store.isOver other := by
        unfold Store.isOver
        rw [hothers other hother]
      rw [hover]
      have hstaffed := h.staffed other
      split
      · simpa [mem_dismiss_iff, mem_engage_iff, hother] using hstaffed
      · simpa [mem_engage_iff, hother] using hstaffed

theorem shutdown (h : s.Staffs addressed) : (s.take .shutdown).Staffs fun _ => False where
  canHire := h.canHire
  undisturbed := h.undisturbed
  runs := h.runs
  workers := ⟨nofun, .nil⟩
  stored := nofun
  staffed run := by simp [Service.take, Service.shutdown]

theorem take (h : s.Staffs (s₀.Addressed calls)) (reaches : s₀.takeAll calls = s) (call : Call) :
    (s.take call).Staffs (s₀.Addressed (calls ++ [call])) := by
  have hreads (reads : s.take call = s) (silent : call.submitsFor? = none)
      (open' : call.isShutdown = false) :
      (s.take call).Staffs (s₀.Addressed (calls ++ [call])) := by
    rw [reads]
    exact h.congr fun run => by simp [addressed_concat_iff, silent, open']
  cases call with
  | create group store leader now =>
    refine (h.create group store leader now).congr fun run => ?_
    simp [addressed_concat_iff, Call.submitsFor?, Call.isShutdown]
  | submit run command now =>
    refine (h.submit run command now).congr fun other => ?_
    rw [addressed_concat_iff, reaches]
    simp only [Call.submitsFor?, Call.isShutdown, Option.some.injEq, true_and]
    constructor
    · rintro (⟨rfl, hstored⟩ | haddressed)
      · exact .inl ⟨rfl, hstored⟩
      · exact .inr haddressed
    · rintro (⟨rfl, hstored⟩ | haddressed)
      · exact .inl ⟨rfl, hstored⟩
      · exact .inr haddressed
  | snapshot run user now =>
    exact hreads (congrArg (fun desk => { s with desk }) (Desk.on_loadFor h.undisturbed)) rfl rfl
  | pickupSheet run user now =>
    exact hreads (congrArg (fun desk => { s with desk }) (Desk.on_pickupSheet h.undisturbed))
      rfl rfl
  | listRuns group user now =>
    exact hreads (congrArg (fun desk => { s with desk }) (Desk.on_listRuns h.undisturbed)) rfl rfl
  | shutdown =>
    refine h.shutdown.congr fun run => ?_
    simp [addressed_concat_iff, Call.submitsFor?, Call.isShutdown]

theorem takeAll (h : s.Staffs (s.Addressed [])) (calls : List Call) :
    (s.takeAll calls).Staffs (s.Addressed calls) := by
  induction calls using List.reverseRecOn with
  | nil => exact h
  | append_singleton calls call ih =>
    have htake : s.takeAll (calls ++ [call]) = (s.takeAll calls).take call := List.foldl_concat ..
    rw [htake]
    exact ih.take rfl call

theorem activeRuns_eq [DecidablePred addressed] (h : s.Staffs addressed) :
    s.activeRuns = s.desk.repository.store.books.countP fun book =>
      !book.run.stage.isTerminal && decide (addressed book.run.id) := by
  let busy := s.desk.repository.store.books.filter fun book =>
    !book.run.stage.isTerminal && decide (addressed book.run.id)
  have hbusy : (busy.map (·.run.id)).Nodup := h.runs.sublist (List.filter_sublist.map _)
  have hmem (run : RunId) : run ∈ s.workers.map (·.run) ↔ run ∈ busy.map (·.run.id) := by
    rw [h.staffed, Store.isOver_eq_false_iff]
    constructor
    · rintro ⟨haddressed, book, finds, hlive⟩
      obtain rfl := Store.id_of_find? finds
      refine List.mem_map_of_mem (List.mem_filter.mpr ⟨Store.mem_of_find? finds, ?_⟩)
      rw [hlive, decide_eq_true haddressed]
      rfl
    · intro hrun
      obtain ⟨book, hbook, rfl⟩ := List.mem_map.mp hrun
      obtain ⟨hbook, hcounts⟩ := List.mem_filter.mp hbook
      rw [Bool.and_eq_true, Bool.not_eq_true', decide_eq_true_eq] at hcounts
      exact ⟨hcounts.2, book, find?_of_nodup h.runs hbook, hcounts.1⟩
  have hperm := (List.perm_ext_iff_of_nodup h.workers.distinct hbusy).mpr hmem
  calc s.activeRuns = (s.workers.map (·.run)).length := (List.length_map ..).symm
    _ = (busy.map (·.run.id)).length := hperm.length_eq
    _ = s.desk.repository.store.books.countP _ := by
      rw [List.length_map, List.countP_eq_length_filter]

end Staffs

/-! ### Without workers -/

theorem takeAll_workers (noHire : s.canHire = false) (none : s.workers = []) (calls : List Call) :
    (s.takeAll calls).workers = [] := by
  induction calls generalizing s with
  | nil => exact none
  | cons call rest ih =>
    cases call with
    | submit run command now =>
      have htake : s.take (.submit run command now) = s := by
        show (s.submit run command now).2 = s
        unfold submit
        rw [noHire]
        rfl
      show ((s.take (.submit run command now)).takeAll rest).workers = []
      rw [htake]
      exact ih noHire none
    | shutdown => exact ih noHire rfl
    | _ => exact ih noHire none

/-- A service over an empty store. -/
def opened (terms : Terms) : Service := .start terms (.ofStore .empty)

theorem opened_staffs {terms : Terms} (canHire : (opened terms).canHire = true) :
    (opened terms).Staffs ((opened terms).Addressed []) where
  canHire := canHire
  undisturbed := ⟨rfl, rfl⟩
  runs := .nil
  workers := ⟨nofun, .nil⟩
  stored _ haddressed := absurd haddressed not_addressed_nil
  staffed run := by simp [not_addressed_nil, opened, start]

end Service

/-- After any calls, there are as many workers as there are stored runs that can still go on and for
which a command was submitted, since they were created and since the service was last shut down. If
no mailbox can be made for workers, there are none. -/
theorem active_runs_exact (terms : Terms) (calls : List Service.Call) :
    ((Service.opened terms).takeAll calls).activeRuns =
      if (Service.opened terms).canHire then
        ((Service.opened terms).takeAll calls).desk.repository.store.books.countP fun book =>
          !book.run.stage.isTerminal && (Service.opened terms).Addressed calls book.run.id
      else 0 := by
  split
  · rename_i canHire
    exact ((Service.opened_staffs canHire).takeAll calls).activeRuns_eq
  · rename_i noHire
    have hnone := Service.takeAll_workers (s := Service.opened terms)
      (Bool.eq_false_iff.mpr noHire) rfl calls
    exact congrArg List.length hnone

/-- The worker of a cancelled run leaves, an unknown run gets none that stays, and a refusal keeps
the worker of a run that goes on. -/
example :
    ((Service.opened Desk.tripTerms).takeAll
      [.create ⟨1⟩ ⟨1⟩ ⟨1⟩ (.ofSeconds 0), .create ⟨1⟩ ⟨1⟩ ⟨2⟩ (.ofSeconds 0),
        .submit ⟨1⟩ ⟨⟨1⟩, .cancel⟩ (.ofSeconds 1), .submit ⟨7⟩ ⟨⟨1⟩, .cancel⟩ (.ofSeconds 2),
        .submit ⟨2⟩ ⟨⟨1⟩, .startShopping⟩ (.ofSeconds 3)]).workers = [⟨⟨2⟩, true⟩] := by
  decide +kernel

end BuyingClub
