/-
Calls all of which succeed.

Calls that are allowed one after the other, none of which closes the file,
all succeed on a sink that never fails, so making them one after the other
is one action (`Session.run_allowed`). What they leave is known from the
calls alone: what the caller handed in, and how each track is coded.
-/
import AudioMux.Proofs.Muxer.Coding
import AudioMux.Proofs.Muxer.Lifecycle

namespace AudioMux

namespace Call

/-- Each of these calls is allowed after those before it, and none closes
the file. -/
def AllAllowed : (before calls : List Call) → Prop
  | _, [] => True
  | before, call :: calls =>
      call.Allowed before ∧ (∀ optimize, call ≠ .finalize optimize)
        ∧ AllAllowed (before ++ [call]) calls

variable {before calls later : List Call} {call : Call}

theorem allAllowed_append (h : AllAllowed before calls)
    (hlater : AllAllowed (before ++ calls) later) :
    AllAllowed before (calls ++ later) := by
  induction calls generalizing before with
  | nil =>
      rw [List.append_nil] at hlater
      exact hlater
  | cons call calls ih =>
      obtain ⟨hallowed, hcall, hcalls⟩ := h
      refine ⟨hallowed, hcall, ih hcalls ?_⟩
      rw [List.append_assoc]
      exact hlater

theorem not_ended_snoc (h : ¬ Ended before)
    (hcall : ∀ optimize, call ≠ .finalize optimize) :
    ¬ Ended (before ++ [call]) := by
  rw [ended_snoc]
  rintro (hended | ⟨_, optimize, heq⟩)
  · exact h hended
  · exact hcall optimize heq

theorem not_ended_append (h : ¬ Ended before)
    (hcalls : AllAllowed before calls) : ¬ Ended (before ++ calls) := by
  induction calls generalizing before with
  | nil =>
      rw [List.append_nil]
      exact h
  | cons call calls ih =>
      obtain ⟨_, hcall, hrest⟩ := hcalls
      have hended := ih (not_ended_snoc h hcall) hrest
      rw [List.append_assoc] at hended
      exact hended

theorem not_ended_nil : ¬ Ended [] := by
  rintro ⟨early, optimize, hprefix, hbegun⟩
  have hnil := List.prefix_nil.mp hprefix
  exact List.cons_ne_nil _ _ (List.append_eq_nil_iff.mp hnil).2

/-- There is a track from the start. -/
theorem zero_lt_trackCount (before : List Call) :
    0 < trackCount before := by
  unfold trackCount maxTracks
  omega

/-- Calls that are allowed as long as the file is not closed. -/
theorem allAllowed_of_forall (hended : ¬ Ended before)
    (h : ∀ call ∈ calls, (∀ optimize, call ≠ .finalize optimize)
      ∧ ∀ later, before <+: later → ¬ Ended later → call.Allowed later) :
    AllAllowed before calls := by
  induction calls generalizing before with
  | nil => trivial
  | cons call calls ih =>
      obtain ⟨hcall, hallowed⟩ := h call List.mem_cons_self
      refine ⟨hallowed before List.prefix_rfl hended, hcall,
        ih (not_ended_snoc hended hcall) fun other hother => ?_⟩
      obtain ⟨hnot, hlater⟩ := h other (List.mem_cons_of_mem _ hother)
      exact ⟨hnot, fun later hprefix =>
        hlater later ((List.prefix_append _ _).trans hprefix)⟩

end Call

namespace Session

variable {σ : Type} [Sink σ]

theorem run_append (session : Session σ) (before calls : List Call) :
    session.run (before ++ calls) = (session.run before).run calls :=
  List.foldl_append

/-- Calls that are all allowed succeed, one after the other, and all of
them count. -/
theorem run_allowed [FaithfulSink σ] [NeverFails σ] {config : MuxerConfig}
    {now : UInt64} {sink : σ} {muxer : Muxer σ}
    (hfresh : FaithfulSink.view sink = .empty)
    (hcreate : Muxer.create config now sink = .ok muxer)
    {before calls : List Call} (h : Call.AllAllowed before calls) :
    calls.forM Call.perform ((opened muxer).run before).muxer
        = .ok ⟨⟩ ((opened muxer).run (before ++ calls)).muxer
      ∧ ((opened muxer).run (before ++ calls)).intakes
        = calls.foldl (fun intakes call => call.record intakes)
          ((opened muxer).run before).intakes
      ∧ ((opened muxer).run (before ++ calls)).muxer.codings
        = calls.foldl (fun codings call => call.recode codings)
          ((opened muxer).run before).muxer.codings := by
  induction calls generalizing before with
  | nil =>
      rw [List.append_nil]
      exact ⟨rfl, rfl, rfl⟩
  | cons call calls ih =>
      obtain ⟨hallowed, hcall, hrest⟩ := h
      obtain ⟨next, hok⟩ := exists_ok_of_allowed hfresh hcreate hallowed
        fun optimize _ _ heq => absurd heq (hcall optimize)
      have hstep : (opened muxer).run (before ++ [call])
          = ⟨next, call.record ((opened muxer).run before).intakes⟩ := by
        rw [run_snoc, proceed_ok call hok]
      obtain ⟨hrun, hintakes, hcodings⟩ := ih hrest
      rw [hstep, List.append_assoc] at hrun hintakes hcodings
      refine ⟨?_, hintakes, ?_⟩
      · exact (Action.apply_bind_ok hok).trans hrun
      · rw [List.foldl_cons, ← Call.codings_of_ok hcall hok]
        exact hcodings

-- ================================================================= closing

variable [FaithfulSink σ] [NeverFails σ]

/-- A file that was begun and not closed is being written. -/
theorem recording_of_begun {config : MuxerConfig} {now : UInt64} {sink : σ}
    {muxer : Muxer σ} (hfresh : FaithfulSink.view sink = .empty)
    (hcreate : Muxer.create config now sink = .ok muxer)
    {before : List Call} (hbegun : Call.Begun before)
    (hended : ¬ Call.Ended before) :
    ∃ ledger blocks,
      ((opened muxer).run before).image.Recording ledger blocks := by
  obtain ⟨hstands, _⟩ := stands_of_create hfresh hcreate before
  refine exists_recording hfresh hcreate
    (hstands.writing.mpr ⟨hbegun, hended⟩) ?_
  simp [Faulted, hstands.fault]

variable {session : Session σ} {ledger : List Entry} {blocks : List Block}
  {optimize : Bool}

/-- A file that is being written is closed, unless it gets too long. -/
theorem Recording.exists_finalized
    (h : session.image.Recording ledger blocks)
    (hlength : (FaithfulSink.view (session.proceed
      (.finalize optimize)).muxer.out.sink).bytes.length < 2 ^ 32) :
    ∃ final, Muxer.finalize optimize session.muxer = .ok () final := by
  have hlength : (session.image.proceed
      (.finalize optimize)).muxer.out.sink.bytes.length < 2 ^ 32 := by
    rw [← image_proceed_finalize h optimize]
    exact hlength
  obtain ⟨done, ledger', blocks', hdone, hfinal⟩ :=
    Muxer.finalize_of_recording h
  have hcases := hdone.addMovie_cases optimize
  rw [← hfinal] at hcases
  rcases hcases with ⟨after, gap, hok, _⟩ | ⟨failure, after, herror, _, hlong⟩
  · obtain ⟨final, hfinalize, _⟩ := Muxer.finalize_of_image hok
    exact ⟨final, hfinalize⟩
  · rw [proceed_error (.finalize optimize) herror] at hlength
    exact absurd hlength (Nat.not_lt.mpr hlong)

omit [NeverFails σ] in
/-- A reader of the closed file gets back what was handed in, and learns
how it is coded. -/
theorem Recording.reads (h : session.image.Recording ledger blocks)
    {final : Muxer σ}
    (hfinalize : Muxer.finalize optimize session.muxer = .ok () final)
    (hlength : (FaithfulSink.view final.out.sink).bytes.length < 2 ^ 32)
    (hinfo : ∀ coding ∈ session.muxer.codings,
      coding.info.length < 2 ^ 27)
    (hunits : ∀ intake ∈ session.intakes, ∀ unit ∈ intake.units,
      unit.data.length < 2 ^ 24) :
    readFile? (FaithfulSink.view final.out.sink).bytes
        = some (session.intakes.map Intake.recovered)
      ∧ readCodings? (FaithfulSink.view final.out.sink).bytes
        = some session.muxer.codings := by
  obtain ⟨done, ledger', blocks', gap, hclosed, hcodings⟩ :=
    Muxer.closed_codings h
      ((Muxer.mirrors_finalize optimize _).1 () final hfinalize)
  refine ⟨hclosed.readFile?_eq hlength, ?_⟩
  refine (hclosed.readCodings?_eq (Nat.lt_trans hlength (by decide))
    fun entry hentry => ?_).trans (congrArg some hcodings)
  have hsound := hclosed.seals.sound entry hentry
  refine hsound.lossless_sampleEntry (hinfo entry.track.coding ?_)
    (hunits entry.intake ?_)
  · show entry.track.coding ∈ session.image.muxer.codings
    rw [← hcodings]
    exact List.mem_map_of_mem hentry
  · show entry.intake ∈ session.image.intakes
    rw [hclosed.seals.intakes]
    exact List.mem_map_of_mem hentry

end Session

end AudioMux
