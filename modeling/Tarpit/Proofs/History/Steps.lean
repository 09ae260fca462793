import Tarpit.Proofs.Store.Changes
import Tarpit.Traffic.Session

/-!
# Steps of a session

All that can be asked of a session: by the callers of the statistics, who may
have given up before they ask, and by whoever looks after the store, the flusher
and the files.  Every step has an answer, and all that it does to the volume is
some changes of files and directories.
-/

namespace Tarpit.Traffic

open Tarpit.Time (Clock Timestamp)

namespace Session

/-- What a caller asks of the statistics. -/
inductive Call where
  | record (v : Visit)
  | request (trusted : Bool) (headers : Net.Headers) (peer : Net.Endpoint) (path : String)
  | summary
  /-- The totals, with the time for which the store has been up. -/
  | standing
  | recent (n : Nat)
  | topKeys (n : Nat)
  | topAgents (n : Nat)
  | chart (n max : Nat)

inductive Step where
  | call (patience : Patience) (asked : Call)
  | reopen (limits : Limits) (how : Opening)
  | close
  | startFlusher (period : Nat)
  | stopFlusher
  | advance (ms : Nat)
  | setClock (now : Clock)
  | flush
  | save
  | load
  | restore (data : Bytes)
  | persisted
  | keyCount (key : String)
  | agentCount (agent : String)
  | adoptStart (time : Timestamp)
  | keySeen (key : String)
  | takeOver (patience : Patience)
  | writeFile (path : Path) (data : Bytes)
  | makeDirectory (path : Path)
  | remove (path : Path)
  | read (path : Path)
  | listing

inductive Answer where
  | done
  | flag (b : Bool)
  | key (key : String)
  | totals (s : Summary)
  | standing (s : Summary) (uptime : Timestamp.Span)
  | visits (visits : List Visit)
  | ranking (ranked : List Ranked)
  | chart (c : Chart)
  | persisted (p : Snapshot)
  | count (n? : Option Nat)
  | seen (span? : Option (Timestamp × Timestamp))
  | report (r : ImportReport)
  | bytes (data? : Option Bytes)
  | names (names : List String)

abbrev Reply := Except Refusal Answer

/-- The answer of a memory store. -/
def onMemory (s : Session) (query : MemoryStore → Answer) : Reply :=
  s.memory?.elim (.error .notOpen) fun m => .ok (query m)

def call (s : Session) (patience : Patience) : Call → Reply × Session
  | .record v => ((s.record patience v).1.map fun _ => .done, (s.record patience v).2)
  | .request trusted headers peer path =>
      ((s.request trusted headers peer path patience).1.map .key,
        (s.request trusted headers peer path patience).2)
  | .summary => ((s.ask fun store => store.summary patience).map .totals, s)
  | .standing =>
      ((s.ask fun store => store.summary patience).map fun t => .standing t (t.uptime s.now.time), s)
  | .recent n => ((s.ask fun store => store.recent patience n).map .visits, s)
  | .topKeys n => ((s.ask fun store => store.topKeys patience n).map .ranking, s)
  | .topAgents n => ((s.ask fun store => store.topAgents patience n).map .ranking, s)
  | .chart n max => ((s.ask fun store => Chart.of store patience n max).map .chart, s)

def step (s : Session) : Step → Reply × Session
  | .call patience asked => s.call patience asked
  | .reopen limits how =>
      match s.reopen limits how with
      | (.ok flushes, s) => (.ok (.flag flushes), s)
      | (.error e, s) => (.error (.failed e), s)
  | .close => (.ok .done, s.close)
  | .startFlusher period =>
      ((s.startFlusher period).1.map fun _ => .done, (s.startFlusher period).2)
  | .stopFlusher => (.ok .done, s.stopFlusher)
  | .advance ms => (.ok .done, s.advance ms)
  | .setClock now => (.ok .done, { s with now })
  | .flush => (s.flush.1.map fun _ => .done, s.flush.2)
  | .save => (s.save.1.map fun _ => .done, s.save.2)
  | .load => (s.load.1.map .flag, s.load.2)
  | .restore data => ((s.restore data).1.map fun _ => .done, (s.restore data).2)
  | .persisted => (s.onMemory fun m => .persisted m.stats.toSnapshot, s)
  | .keyCount key => (s.onMemory fun m => .count (m.stats.keys.count? key), s)
  | .agentCount agent => (s.onMemory fun m => .count (m.stats.agents.count? agent), s)
  | .adoptStart time => ((s.adoptStart time).1.map .flag, (s.adoptStart time).2)
  | .keySeen key => ((s.keySeen key).map .seen, s)
  | .takeOver patience => ((s.takeOver patience).1.map .report, (s.takeOver patience).2)
  | .writeFile path data => (.ok .done, s.writeFile path data)
  | .makeDirectory path => (.ok .done, s.makeDirectory path)
  | .remove path => (.ok (.flag (s.remove path).1), (s.remove path).2)
  | .read path => (.ok (.bytes (s.volume.read? path)), s)
  | .listing => (.ok (.names s.listing), s)

/-- Several steps, each with its reply, and the session after them. -/
def follow (s : Session) : List Step → List (Step × Reply) × Session
  | [] => ([], s)
  | next :: rest =>
      (((next, (s.step next).1) :: ((s.step next).2.follow rest).1),
        ((s.step next).2.follow rest).2)

/-! ## What is done to the volume -/

section

variable (s : Session)

theorem becomes_flushedOf (store? : Option Store) :
    s.volume.Becomes (s.flushedOf store?).volume := by
  cases store? with
  | none => exact .refl _
  | some store => exact store.becomes_flush s.volume

theorem becomes_stopFlusher : s.volume.Becomes s.stopFlusher.volume := by
  unfold stopFlusher
  split
  · exact s.becomes_flushedOf s.store?
  · exact .refl _

theorem becomes_close : s.volume.Becomes s.close.volume := by
  apply s.becomes_stopFlusher.trans
  show s.stopFlusher.volume.Becomes
    ((s.stopFlusher.store?.map fun store => store.close s.stopFlusher.volume).getD
      s.stopFlusher.volume)
  cases s.stopFlusher.store? with
  | none => exact .refl _
  | some store => exact store.becomes_close _

theorem becomes_handMemory {vol : Volume} {now : Timestamp} {limits : Limits} {snapshot : Bool}
    {logs : List LogChoice} {opened : MemoryStore × Volume}
    (h : handMemory vol now limits snapshot logs = .ok opened) : vol.Becomes opened.2 := by
  -- Every log is attached to a store and a volume that the logs before it left.
  have hattach : ∀ (logs : List LogChoice) (start : MemoryStore × Volume),
      logs.foldlM attachLog start = .ok opened → start.2.Becomes opened.2 := by
    intro logs
    induction logs with
    | nil =>
        intro start h
        cases h
        exact .refl _
    | cons log rest ih =>
        intro start h
        rw [List.foldlM_cons] at h
        cases hlog : attachLog start log with
        | error e =>
            rw [hlog] at h
            cases h
        | ok attached =>
            rw [hlog] at h
            have hfirst : start.2.Becomes attached.2 := by
              cases log with
              | file => exact MemoryStore.becomes_withLog hlog
              | full =>
                  cases hlog
                  exact .refl _
            exact hfirst.trans (ih attached h)
  exact hattach logs _ h

theorem becomes_opened (vol : Volume) (now : Timestamp) (limits : Limits) (how : Opening) :
    vol.Becomes (opened vol now limits how).2 := by
  unfold opened
  split
  · split
    · next hopened => exact becomes_handMemory hopened
    · exact .refl _
  · split
    · next hopened => exact DurableStore.becomes_openFile hopened
    · exact .refl _
  · exact .refl _
  · exact Store.becomes_create _ _ limits now vol

theorem becomes_reopen (limits : Limits) (how : Opening) :
    s.volume.Becomes (s.reopen limits how).2.volume := by
  have hopened := becomes_opened s.close.volume s.close.now.time limits how
  apply s.becomes_close.trans
  unfold reopen
  simp only
  split
  · next hresult =>
      rw [hresult] at hopened
      exact hopened
  · next hresult =>
      rw [hresult] at hopened
      exact hopened

theorem becomes_flushStrays : s.volume.Becomes s.flushStrays.volume := by
  have hfold : ∀ (strays : List StrayFlusher) (s : Session), s.volume.Becomes
      (strays.foldl (fun s f => if 0 < f.ticker.ticks s.running then
        s.flushedOf (f.closed?.or s.store?) else s) s).volume := by
    intro strays
    induction strays with
    | nil => exact fun s => .refl _
    | cons f rest ih =>
        intro s
        rw [List.foldl_cons]
        refine Volume.Becomes.trans ?_ (ih _)
        split
        · exact s.becomes_flushedOf _
        · exact .refl _
  exact hfold s.strays s

theorem becomes_flushDue : s.volume.Becomes s.flushDue.volume := by
  unfold flushDue
  split
  · next ticker _ =>
      let advanced : Session := { s with flusher? := some (ticker.advance s.running) }
      simp only
      split
      · exact advanced.becomes_flushedOf s.store?
      · exact .refl _
  · exact .refl _

theorem becomes_advance (ms : Nat) : s.volume.Becomes (s.advance ms).volume := by
  let later : Session :=
    { s with now := s.now.later (ms * 1000000), running := s.running + ms }
  exact later.becomes_flushStrays.trans later.flushStrays.becomes_flushDue

theorem becomes_record (patience : Patience) (v : Visit) :
    s.volume.Becomes (s.record patience v).2.volume := by
  unfold record
  split
  · split
    · next hrecord =>
        split
        · exact .refl _
        · exact Store.becomes_record hrecord
    · exact .refl _
  · exact .refl _

theorem becomes_request (trusted : Bool) (headers : Net.Headers) (peer : Net.Endpoint)
    (path : String) (patience : Patience) :
    s.volume.Becomes (s.request trusted headers peer path patience).2.volume := by
  have hrecord := s.becomes_record patience (.arriving trusted headers peer path s.now.time)
  unfold request
  simp only
  split
  · next hresult =>
      rw [hresult] at hrecord
      exact hrecord
  · next hresult =>
      rw [hresult] at hrecord
      exact hrecord

theorem becomes_call (patience : Patience) (asked : Call) :
    s.volume.Becomes (s.call patience asked).2.volume := by
  cases asked with
  | record v => exact s.becomes_record patience v
  | request trusted headers peer path => exact s.becomes_request trusted headers peer path patience
  | _ => exact .refl _

theorem becomes_flush : s.volume.Becomes s.flush.2.volume := by
  unfold flush
  split
  · next store _ =>
      have hflush := store.becomes_flush s.volume
      split
      · next hresult =>
          rw [hresult] at hflush
          exact hflush
      · next hresult =>
          rw [hresult] at hflush
          exact hflush
  · exact .refl _

theorem becomes_adoptStart (time : Timestamp) :
    s.volume.Becomes (s.adoptStart time).2.volume := by
  unfold adoptStart
  split
  · next d _ =>
      split
      · exact .refl _
      · exact d.becomes_adoptStart s.volume time
  · exact .refl _

theorem becomes_takeOver (patience : Patience) :
    s.volume.Becomes (s.takeOver patience).2.volume := by
  unfold takeOver
  split
  · next d _ =>
      have htaken := d.becomes_takeOver s.volume [] patience
      simp only
      split
      · exact htaken
      · exact htaken
  · exact .refl _

theorem volume_load : s.load.2.volume = s.volume := by
  unfold load
  split
  · split
    · rfl
    · rfl
  · rfl

theorem volume_restore (data : Bytes) : (s.restore data).2.volume = s.volume := by
  unfold restore
  split
  · split
    · rfl
    · rfl
  · rfl

theorem becomes_step (next : Step) : s.volume.Becomes (s.step next).2.volume := by
  cases next with
  | call patience asked => exact s.becomes_call patience asked
  | reopen limits how =>
      have hreopen := s.becomes_reopen limits how
      unfold step
      simp only
      split
      · next hresult =>
          rw [hresult] at hreopen
          exact hreopen
      · next hresult =>
          rw [hresult] at hreopen
          exact hreopen
  | close => exact s.becomes_close
  | startFlusher period =>
      show s.volume.Becomes (s.startFlusher period).2.volume
      unfold startFlusher
      split
      · exact .refl _
      · exact .refl _
  | stopFlusher => exact s.becomes_stopFlusher
  | advance ms => exact s.becomes_advance ms
  | flush => exact s.becomes_flush
  | save =>
      show s.volume.Becomes s.save.2.volume
      unfold save
      split
      · exact s.becomes_flush
      · exact .refl _
  | load =>
      show s.volume.Becomes s.load.2.volume
      rw [s.volume_load]
      exact .refl _
  | restore data =>
      show s.volume.Becomes (s.restore data).2.volume
      rw [s.volume_restore]
      exact .refl _
  | adoptStart time => exact s.becomes_adoptStart time
  | takeOver patience => exact s.becomes_takeOver patience
  | writeFile path data =>
      show s.volume.Becomes ((s.volume.write? path data).getD s.volume)
      cases hwrite : s.volume.write? path data with
      | none => exact .refl _
      | some written => exact Volume.becomes_write? hwrite
  | makeDirectory path =>
      show s.volume.Becomes ((s.volume.makeDirectories? path).getD s.volume)
      cases hmade : s.volume.makeDirectories? path with
      | none => exact .refl _
      | some made => exact Volume.becomes_makeDirectories? hmade
  | remove path => exact s.volume.becomes_remove path
  | _ => exact .refl _

theorem becomes_follow (steps : List Step) : s.volume.Becomes (s.follow steps).2.volume := by
  induction steps generalizing s with
  | nil => exact .refl _
  | cons next rest ih => exact (s.becomes_step next).trans (ih _)

end

end Session

end Tarpit.Traffic
