import ColumnIndex.Metrics.Recorder
import ColumnIndex.Metrics.Scope
import Mathlib.Data.List.Dedup

/-!
# Events within scopes

Each event of a program with scopes goes to one place: to the sink of the innermost scope around
it, or to the counters if there is none. Sinks and counters get their events in the order of the
program, and a program leaves the sink in force that it found. A recorder does the same for scopes
that have a sink of their own each.

## Main definitions

* `Program` — events and scopes, one after the other and one within another.
* `Program.run` — what a program does to a thread.
* `Program.sites` — the events of a program with the sinks of the scopes around them.
* `Program.eventsFor` — the events for one sink, or those in no scope.
* `Program.replay` — what a program does to a recorder.
* `Thread.Represents` — a recorder with the open sinks of a thread.

Main statement: `Program.delivers`.
-/
namespace ColumnIndex

variable {Sink : Type}

/-- Items are those with the first key, those with the second one, and so on. -/
theorem perm_flatMap_filter {ι κ : Type} [DecidableEq κ] {key : ι → κ} {keys : List κ}
    (hkeys : keys.Nodup) {items : List ι} (hitems : ∀ item ∈ items, key item ∈ keys) :
    (keys.flatMap fun k => items.filter (key · = k)).Perm items := by
  -- By induction on the keys: the items with the first one are set apart.
  induction keys generalizing items with
  | nil =>
    rw [List.eq_nil_iff_forall_not_mem.2 fun item hitem => List.not_mem_nil (hitems item hitem)]
    exact .nil
  | cons k keys ih =>
    rw [List.nodup_cons] at hkeys
    have hrest : ∀ k' ∈ keys, items.filter (key · = k') =
        (items.filter fun item => !decide (key item = k)).filter (key · = k') := by
      intro k' hk'
      rw [List.filter_filter]
      refine List.filter_congr fun item _ => ?_
      by_cases hkey : key item = k' <;> simp [hkey]
      rintro rfl
      exact hkeys.1 hk'
    have hmem : ∀ item ∈ items.filter fun item => !decide (key item = k), key item ∈ keys := by
      intro item hitem
      rw [List.mem_filter, Bool.not_eq_true', decide_eq_false_iff_not] at hitem
      exact (List.mem_cons.1 (hitems item hitem.1)).resolve_left hitem.2
    rw [List.flatMap_cons, List.flatMap_congr hrest]
    exact ((ih hkeys.2 hmem).append_left _).trans (List.filter_append_perm _ items)

/-- What a thread does about events. -/
inductive Program (Sink : Type)
  | done
  | record (event : Event) (rest : Program Sink)
  | scope (sink : Sink) (body rest : Program Sink)

namespace Program

/-! ## What programs say -/

/-- The events of a program, in order. -/
def events : Program Sink → List Event
  | done => []
  | record event rest => event :: rest.events
  | scope _ body rest => body.events ++ rest.events

/-- The events of a program, in order, each with the sinks of the scopes around it, of which the
innermost is the first. The scopes around the whole program are given. -/
def sites (around : List Sink) : Program Sink → List (List Sink × Event)
  | done => []
  | record event rest => (around, event) :: rest.sites around
  | scope sink body rest => body.sites (sink :: around) ++ rest.sites around

/-- Each event has one site. -/
theorem map_snd_sites (p : Program Sink) (around : List Sink) :
    (p.sites around).map Prod.snd = p.events := by
  induction p generalizing around with
  | done => rfl
  | record event rest ih => rw [sites, events, List.map_cons, ih]
  | scope sink body rest ihbody ihrest => rw [sites, events, List.map_append, ihbody, ihrest]

/-- The sinks of the scopes of a program, in the order in which the scopes end. -/
def sinks : Program Sink → List Sink
  | done => []
  | record _ rest => rest.sinks
  | scope sink body rest => body.sinks ++ sink :: rest.sinks

variable [DecidableEq Sink] {around : List Sink} {destination : Option Sink}

/-- The events of a program whose innermost scope has the sink, or that are in no scope. -/
def eventsFor (p : Program Sink) (around : List Sink) (destination : Option Sink) : List Event :=
  ((p.sites around).filter fun site => site.1.head? = destination).map Prod.snd

@[simp] theorem eventsFor_done : (done : Program Sink).eventsFor around destination = [] := rfl

theorem eventsFor_record (event : Event) (rest : Program Sink) :
    (record event rest).eventsFor around destination =
      (if around.head? = destination then [event] else []) ++
        rest.eventsFor around destination := by
  rw [eventsFor, eventsFor, sites, List.filter_cons]
  split_ifs <;> simp_all

theorem eventsFor_scope (sink : Sink) (body rest : Program Sink) :
    (scope sink body rest).eventsFor around destination =
      body.eventsFor (sink :: around) destination ++ rest.eventsFor around destination := by
  rw [eventsFor, eventsFor, eventsFor, sites, List.filter_append, List.map_append]

/-- A scope hides all that is around it. -/
theorem eventsFor_scope_none (p : Program Sink) (sink : Sink) :
    p.eventsFor (sink :: around) none = [] := by
  induction p generalizing sink around with
  | done => rfl
  | record event rest ih =>
    rw [eventsFor_record, ih]
    rfl
  | scope inner body rest ihbody ihrest => rw [eventsFor_scope, ihbody, ihrest, List.append_nil]

omit [DecidableEq Sink] in
/-- The innermost scope around an event is one of the program, or else the innermost one around the
program. -/
theorem head?_of_mem_sites {p : Program Sink} {site : List Sink × Event}
    (h : site ∈ p.sites around) :
    site.1.head? = around.head? ∨ ∃ sink ∈ p.sinks, site.1.head? = some sink := by
  induction p generalizing around with
  | done => cases h
  | record event rest ih =>
    rcases List.mem_cons.1 h with rfl | h
    · exact .inl rfl
    · exact ih h
  | scope inner body rest ihbody ihrest =>
    rcases List.mem_append.1 h with h | h
    · refine .inr ?_
      rcases ihbody h with hinner | ⟨sink, hsink, hhead⟩
      · exact ⟨inner, by simp [sinks], hinner⟩
      · exact ⟨sink, by simp [sinks, hsink], hhead⟩
    · exact (ihrest h).imp_right fun ⟨sink, hsink, hhead⟩ => ⟨sink, by simp [sinks, hsink], hhead⟩

/-- A sink gets no events of a program that has no scope for it. -/
theorem eventsFor_eq_nil {p : Program Sink} {sink : Sink} (hsink : sink ∉ p.sinks)
    (haround : around.head? ≠ some sink) : p.eventsFor around (some sink) = [] := by
  rw [eventsFor, List.map_eq_nil_iff, List.filter_eq_nil_iff]
  intro site hsite hhead
  rw [decide_eq_true_iff] at hhead
  rcases head?_of_mem_sites hsite with h | ⟨other, hother, h⟩
  · exact haround (h.symm.trans hhead)
  · obtain rfl := Option.some.inj (h.symm.trans hhead)
    exact hsink hother

/-- Where the events of a program may go: to the counters and to the sinks of all scopes. -/
def destinations (p : Program Sink) (around : List Sink) : List (Option Sink) :=
  none :: (around ++ p.sinks).dedup.map some

/-- Each event goes to one place. -/
theorem perm_eventsFor (p : Program Sink) (around : List Sink) :
    ((p.destinations around).flatMap (p.eventsFor around)).Perm p.events := by
  have hnodup : (p.destinations around).Nodup :=
    List.nodup_cons.2 ⟨by simp, (List.nodup_dedup _).map fun _ _ => Option.some.inj⟩
  have hmem : ∀ site ∈ p.sites around, site.1.head? ∈ p.destinations around := by
    intro site hsite
    rw [destinations]
    rcases head?_of_mem_sites hsite with h | ⟨sink, hsink, h⟩
    · rw [h]
      cases around <;> simp
    · rw [h]
      simp [hsink]
  have hsites := (perm_flatMap_filter hnodup hmem).map Prod.snd
  rwa [List.map_flatMap, map_snd_sites] at hsites

/-! ## Runs of programs -/

/-- A thread runs a program. -/
def run : Program Sink → StateM (Thread Sink) Unit
  | done => pure ()
  | record event rest => do
    modify (Thread.record event)
    rest.run
  | scope sink body rest => do
    Thread.withSink sink body.run
    rest.run

/-- The thread after a program. -/
def after (p : Program Sink) (t : Thread Sink) : Thread Sink := (p.run t).2

@[simp] theorem after_done (t : Thread Sink) : (done : Program Sink).after t = t := rfl

@[simp] theorem after_record (event : Event) (rest : Program Sink) (t : Thread Sink) :
    (record event rest).after t = rest.after (t.record event) := rfl

@[simp] theorem after_scope (sink : Sink) (body rest : Program Sink) (t : Thread Sink) :
    (scope sink body rest).after t =
      rest.after ((body.after (t.install sink).2).restore t.inForce) := rfl

end Program

/-! ## Threads that run programs -/

namespace Thread

variable [DecidableEq Sink]

@[simp] theorem inForce_record (event : Event) (t : Thread Sink) :
    (t.record event).inForce = t.inForce := by
  rw [record]
  split <;> rfl

/-- An event is another one for the sink in force, and for no other sink. -/
theorem taken_record (event : Event) (t : Thread Sink) (sink : Sink) :
    (t.record event).taken sink =
      t.taken sink ++ if t.inForce = some sink then [event] else [] := by
  rw [record]
  split
  · rename_i current hcurrent
    by_cases hsink : sink = current
    · subst hsink
      rw [if_pos hcurrent]
      exact Function.update_self ..
    · rw [if_neg fun h => hsink (Option.some.inj (h.symm.trans hcurrent)), List.append_nil]
      exact Function.update_of_ne hsink ..
  · rename_i hnone
    rw [hnone, if_neg (by simp), List.append_nil]

/-- An event is counted if no sink is in force. -/
theorem counters_record (event : Event) (t : Thread Sink) :
    (t.record event).counters =
      t.counters.countAll (if t.inForce = none then [event] else []) := by
  rw [record]
  split
  · rename_i sink hsink
    rw [hsink, if_neg (by simp)]
    rfl
  · rename_i hnone
    rw [if_pos hnone]
    rfl

end Thread

namespace Program

variable [DecidableEq Sink]

/-- A program leaves the sink in force that it found. -/
@[simp] theorem inForce_after (p : Program Sink) (t : Thread Sink) :
    (p.after t).inForce = t.inForce := by
  induction p generalizing t with
  | done => rfl
  | record event rest ih => rw [after_record, ih, Thread.inForce_record]
  | scope sink body rest _ ihrest =>
    rw [after_scope, ihrest, Thread.inForce_restore]

/-- What a sink takes of a program. -/
theorem taken_after (p : Program Sink) (t : Thread Sink) {around : List Sink}
    (haround : around.head? = t.inForce) (sink : Sink) :
    (p.after t).taken sink = t.taken sink ++ p.eventsFor around (some sink) := by
  -- The scopes around are not fixed, since a body has one more of them.
  induction p generalizing t around with
  | done => rw [after_done, eventsFor_done, List.append_nil]
  | record event rest ih =>
    rw [after_record, ih _ (haround.trans (Thread.inForce_record event t).symm),
      Thread.taken_record, eventsFor_record, haround, List.append_assoc]
  | scope inner body rest ihbody ihrest =>
    have hinner : (inner :: around).head? = (t.install inner).2.inForce := rfl
    have hbody := ihbody (t.install inner).2 hinner
    have hrest := ihrest ((body.after (t.install inner).2).restore t.inForce) haround
    rw [after_scope, hrest, Thread.taken_restore, hbody, Thread.taken_install, eventsFor_scope,
      List.append_assoc]

/-- A sink that a program has no scope for takes nothing, unless it is in force. -/
theorem taken_after_of_notMem {p : Program Sink} {t : Thread Sink} {sink : Sink}
    (hsink : sink ∉ p.sinks) (hinForce : t.inForce ≠ some sink) :
    (p.after t).taken sink = t.taken sink := by
  have haround : t.inForce.toList.head? = t.inForce := Option.head?_toList
  rw [taken_after p t haround, eventsFor_eq_nil hsink (by rwa [haround]), List.append_nil]

/-- What is counted of a program. -/
theorem counters_after (p : Program Sink) (t : Thread Sink) {around : List Sink}
    (haround : around.head? = t.inForce) :
    (p.after t).counters = t.counters.countAll (p.eventsFor around none) := by
  induction p generalizing t around with
  | done => rfl
  | record event rest ih =>
    rw [after_record, ih _ (haround.trans (Thread.inForce_record event t).symm),
      Thread.counters_record, eventsFor_record, haround, Counters.countAll_append]
  | scope inner body rest ihbody ihrest =>
    have hinner : (inner :: around).head? = (t.install inner).2.inForce := rfl
    have hbody := ihbody (t.install inner).2 hinner
    have hrest := ihrest ((body.after (t.install inner).2).restore t.inForce) haround
    rw [after_scope, hrest, Thread.counters_restore, hbody, Thread.counters_install,
      eventsFor_scope, Counters.countAll_append]

/-! ## Recorders -/

/-- The recorder after a program, and what was taken within each scope. -/
def replay : Program Sink → Recorder → Recorder × List (List Event)
  | done, r => (r, [])
  | record event rest, r => rest.replay (r.record event)
  | scope _ body rest, r =>
    let (within, inner) := body.replay r.enter
    let (outside, taken) := within.leave
    let (last, outer) := rest.replay outside
    (last, inner ++ taken :: outer)

end Program

namespace Thread

/-- The recorder has the counters of the thread, and what its open sinks have taken. The one that is
in force is the first, and no sink is opened twice. -/
structure Represents (t : Thread Sink) (opened : List Sink) (r : Recorder) : Prop where
  counters : r.counters = t.counters
  sinks : r.sinks = opened.map t.taken
  inForce : opened.head? = t.inForce
  nodup : opened.Nodup

namespace Represents

variable {t : Thread Sink} {opened : List Sink} {r : Recorder} {sink : Sink}

theorem inForce_ne (h : t.Represents opened r) (hsink : sink ∉ opened) :
    t.inForce ≠ some sink :=
  fun hforce => hsink (List.mem_of_mem_head? (h.inForce.trans hforce))

theorem record [DecidableEq Sink] (h : t.Represents opened r) (event : Event) :
    (t.record event).Represents opened (r.record event) := by
  obtain ⟨hcounters, hsinks, hinForce, hnodup⟩ := h
  refine ⟨?_, ?_, hinForce.trans (inForce_record event t).symm, hnodup⟩
  · rw [counters_record, ← hinForce, ← hcounters, Recorder.record, hsinks]
    cases opened <;> rfl
  · rw [Recorder.record, hsinks]
    cases opened with
    | nil => rfl
    | cons first rest =>
      have hfirst : t.inForce = some first := hinForce.symm
      have hrest : ∀ other ∈ rest, (t.record event).taken other = t.taken other := by
        intro other hother
        have hne : first ≠ other := by
          rintro rfl
          exact (List.nodup_cons.1 hnodup).1 hother
        rw [taken_record, hfirst, if_neg fun h => hne (Option.some.inj h), List.append_nil]
      have hmap : (first :: rest).map (t.record event).taken =
          (t.taken first ++ [event]) :: rest.map t.taken := by
        rw [List.map_cons, List.map_congr_left hrest, taken_record, if_pos hfirst]
      exact hmap.symm

theorem enter (h : t.Represents opened r) (hnew : sink ∉ opened) (hempty : t.taken sink = []) :
    (t.install sink).2.Represents (sink :: opened) r.enter where
  counters := h.counters
  sinks := by
    rw [List.map_cons, taken_install, hempty, ← h.sinks]
    rfl
  inForce := rfl
  nodup := List.nodup_cons.2 ⟨hnew, h.nodup⟩

theorem leave (h : t.Represents (sink :: opened) r) :
    (t.restore opened.head?).Represents opened r.leave.1 ∧ r.leave.2 = t.taken sink := by
  obtain ⟨hcounters, hsinks, -, hnodup⟩ := h
  rw [Recorder.leave, hsinks]
  exact ⟨⟨hcounters, rfl, rfl, (List.nodup_cons.1 hnodup).2⟩, rfl⟩

/-- Within a scope and after it the sinks are still distinct, and what follows it has none of those
that are closed. -/
theorem nodup_of_scope {body rest : Program Sink}
    (h : ((Program.scope sink body rest).sinks ++ opened).Nodup) :
    (body.sinks ++ sink :: opened).Nodup ∧ (rest.sinks ++ opened).Nodup ∧
      ∀ closed ∈ body.sinks ++ [sink], closed ∉ rest.sinks ∧ closed ∉ opened := by
  rw [Program.sinks, List.append_cons] at h
  have hclosed : (body.sinks ++ [sink]).Disjoint (rest.sinks ++ opened) :=
    List.disjoint_of_nodup_append (by rwa [← List.append_assoc])
  refine ⟨h.sublist (by simp), h.sublist (by simp), fun closed hmem => ⟨?_, ?_⟩⟩
  · exact fun hrest => hclosed hmem (List.mem_append_left _ hrest)
  · exact fun hopened => hclosed hmem (List.mem_append_right _ hopened)

/-- A recorder does the same as a thread if each scope has a sink of its own, which has taken
nothing before. -/
theorem replay [DecidableEq Sink] (h : t.Represents opened r) (p : Program Sink)
    (hown : (p.sinks ++ opened).Nodup) (hempty : ∀ sink ∈ p.sinks, t.taken sink = []) :
    (p.after t).Represents opened (p.replay r).1 ∧
      (p.replay r).2 = p.sinks.map (p.after t).taken := by
  induction p generalizing t opened r with
  | done => exact ⟨h, rfl⟩
  | record event rest ih =>
    refine ih (h.record event) hown fun sink hsink => ?_
    have hopened : sink ∉ opened := fun hopened =>
      (List.nodup_append.1 hown).2.2 sink hsink sink hopened rfl
    rw [taken_record, if_neg (h.inForce_ne hopened), List.append_nil]
    exact hempty sink hsink
  | scope inner body rest ihbody ihrest =>
    obtain ⟨hbody, hrest, hclosed⟩ := nodup_of_scope hown
    rw [Program.sinks, List.append_cons] at hempty
    have hinner : inner ∉ opened := (hclosed inner (by simp)).2
    have hwithin := h.enter hinner (hempty inner (by simp))
    obtain ⟨hwithin, htaken⟩ := ihbody hwithin hbody fun sink hsink =>
      hempty sink (by simp [hsink])
    obtain ⟨houtside, hscope⟩ := hwithin.leave
    rw [h.inForce] at houtside
    have hnew : ∀ sink ∈ rest.sinks,
        ((body.after (t.install inner).2).restore t.inForce).taken sink = [] := by
      intro sink hsink
      have hbody : sink ∉ body.sinks := fun hmem => (hclosed sink (by simp [hmem])).1 hsink
      have hne : inner ≠ sink := by
        rintro rfl
        exact (hclosed inner (by simp)).1 hsink
      rw [taken_restore, Program.taken_after_of_notMem hbody fun h => hne (Option.some.inj h)]
      exact hempty sink (by simp [hsink])
    obtain ⟨hlast, houter⟩ := ihrest houtside hrest hnew
    refine ⟨hlast, ?_⟩
    -- The sinks that are closed by now take nothing of the rest.
    have hkept : ∀ sink ∈ body.sinks ++ [inner],
        ((Program.scope inner body rest).after t).taken sink =
          (body.after (t.install inner).2).taken sink := by
      intro sink hsink
      obtain ⟨hsinks, hopened⟩ := hclosed sink hsink
      exact Program.taken_after_of_notMem hsinks (h.inForce_ne hopened)
    have hbodyKept : body.sinks.map ((Program.scope inner body rest).after t).taken =
        body.sinks.map (body.after (t.install inner).2).taken :=
      List.map_congr_left fun sink hsink => hkept sink (by simp [hsink])
    rw [Program.sinks, List.map_append, List.map_cons, hbodyKept, hkept inner (by simp), ← htaken,
      ← hscope]
    exact congrArg (_ ++ _ :: ·) houter

end Represents

end Thread

/-! ## Where events go -/

namespace Program

variable [DecidableEq Sink]

/-- Each event of a program goes to one place, which is the sink of the innermost scope around it,
or the counters if there is no scope. All that one place gets is in the order of the program. What a
scope takes is not counted, and after it that sink is in force that was before. A recorder does the
same if each scope has a sink of its own, which has taken nothing before. -/
theorem delivers (p : Program Sink) (t : Thread Sink) :
    ((p.destinations t.inForce.toList).flatMap (p.eventsFor t.inForce.toList)).Perm p.events ∧
      (∀ sink, (p.after t).taken sink =
        t.taken sink ++ p.eventsFor t.inForce.toList (some sink)) ∧
      (p.after t).counters = t.counters.countAll (p.eventsFor t.inForce.toList none) ∧
      (p.after t).inForce = t.inForce ∧
      (∀ sink, ((scope sink p done).after t).counters = t.counters ∧
        ((scope sink p done).after t).inForce = t.inForce) ∧
      ∀ opened r, t.Represents opened r → (p.sinks ++ opened).Nodup →
        (∀ sink ∈ p.sinks, t.taken sink = []) →
          (p.after t).Represents opened (p.replay r).1 ∧
            (p.replay r).2 = p.sinks.map (p.after t).taken := by
  have haround : t.inForce.toList.head? = t.inForce := Option.head?_toList
  have hscope : ∀ sink, ((scope sink p done).after t).counters = t.counters := by
    intro sink
    rw [counters_after _ t haround, eventsFor_scope, eventsFor_scope_none]
    rfl
  exact ⟨p.perm_eventsFor _, p.taken_after t haround, p.counters_after t haround,
    p.inForce_after t, fun sink => ⟨hscope sink, inForce_after _ t⟩, fun _ _ h => h.replay p⟩

/-- A scope within another one, and an event after both. -/
def sampleNested : Program Bool :=
  scope true
    (record (.schemaBuilt 1) (scope false (record .compileRejected done)
      (record (.schemaBuilt 2) done)))
    (record (.schemaBuilt 3) done)

/-- The outer scope takes what comes before and after the inner one. -/
theorem delivers_nested :
    (sampleNested.after {}).taken true = [.schemaBuilt 1, .schemaBuilt 2] ∧
      (sampleNested.after {}).counters = Counters.count {} (.schemaBuilt 3) ∧
      (sampleNested.replay {}).2 = [[.compileRejected], [.schemaBuilt 1, .schemaBuilt 2]] := by
  obtain ⟨-, htaken, hcounters, -, -, hreplay⟩ := delivers sampleNested {}
  obtain ⟨-, hreplay⟩ := hreplay [] {} ⟨rfl, rfl, rfl, List.nodup_nil⟩ (by decide) (by decide)
  exact ⟨(htaken true).trans (by decide), hcounters.trans (by decide), hreplay.trans (by decide)⟩

-- A sink that is in force once more within its own scope takes each event once.
example :
    let last := (scope true sampleNested (record (.schemaBuilt 4) done)).after {}
    last.taken true = [.schemaBuilt 1, .schemaBuilt 2, .schemaBuilt 3] ∧
      last.counters = Counters.count {} (.schemaBuilt 4) ∧ last.inForce = none := by
  decide

end Program

end ColumnIndex
