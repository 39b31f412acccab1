import Orator.Proofs.Session.Sound

/-! What a session remembers is what the live instance has accepted last, whatever was asked of the session
    before; so a request passes on just what differs, and leaves the engine as it asks. -/

namespace Orator

/-- The calls by which a history has grown, the oldest first. -/
def History.since (before after : History) : List Call :=
  (after.take (after.length - before.length)).reverse

theorem History.since_append (calls before : History) : before.since (calls ++ before) = calls.reverse := by
  simp [History.since]

namespace Session

/-- What can be asked of a session. -/
inductive Op where
  | selectVoice (displayName : String)
  | selectDefault
  | params (p : Prosody)
  /-- To set the rate, the pitch or the punctuation alone. -/
  | wish (wish : Wish)
  | stop
deriving DecidableEq, Repr

namespace Op

def run (house : House) : Op → Session → Session
  | selectVoice displayName, s => (s.selectVoice house displayName).2
  | selectDefault, s => (s.selectDefault house).2
  | params p, s => s.applyParams house p
  | wish w, s => (s.heed house w).2
  | stop, s => s.stop

/-- The value that the operation asks for. -/
def asks : Op → Dial → Option Wish
  | params p, dial => some (p.wish dial)
  | wish w, dial => if w.dial = dial then some w else none
  | _, _ => none

theorem run_steps (house : House) (op : Op) (s : Session) : ∃ calls, Steps op.asks s calls (op.run house s) := by
  cases op with
  | selectVoice displayName => exact selectVoice_steps _ house displayName s
  | selectDefault => exact selectDefault_steps _ house s
  | params p => exact applyParams_steps house p s
  | wish w => exact heed_steps _ house (by simp [asks]) s
  | stop => exact stop_steps _ s

end Op

def operate (house : House) (ops : List Op) (s : Session) : Session :=
  ops.foldl (fun s op => op.run house s) s

/-- Operations with the calls that each led to, in order. -/
abbrev Log := List (Op × List Call)

def log (house : House) : List Op → Session → Log
  | [], _ => []
  | op :: ops, s => (op, s.history.since (op.run house s).history) :: log house ops (op.run house s)

/-- What the operation asked for, if the engine accepted a setting of that dial. -/
def granted? (engine : Engine) (dial : Dial) (entry : Op × List Call) : Option Wish :=
  if entry.2.any (·.accepts engine dial) then entry.1.asks dial else none

/-- The value, as the host put it, that was asked for when the engine last accepted a setting of that dial. -/
def Log.lastWish (engine : Engine) (dial : Dial) (log : Log) : Option Wish :=
  log.reverse.findSome? (granted? engine dial)

section
variable {house : House} {s t : Session} {past : Log} {op : Op} {ops : List Op} {calls : List Call}

theorem lastWish_snoc (engine : Engine) (dial : Dial) (entry : Op × List Call) :
    Log.lastWish engine dial (past ++ [entry]) = (granted? engine dial entry).or (past.lastWish engine dial) := by
  rw [Log.lastWish, List.reverse_append, List.reverse_singleton, List.singleton_append, List.findSome?_cons]
  cases granted? engine dial entry <;> rfl

/-- The log tells of calls that were made, and the session remembers what it tells. -/
structure Remembers (past : Log) (s : Session) : Prop where
  made : ∀ entry ∈ past, ∀ call ∈ entry.2, call ∈ s.history
  recalls : ∀ active, s.active = some active → ∀ dial, s.applied.memory dial = past.lastWish active.engine dial

theorem start_remembers (h : History) : Remembers [] { history := h } where
  made := nofun
  recalls := nofun

/-- Of an instance that was never started no log tells. -/
theorem lastWish_of_not_began {engine : Engine} (hs : Sound s)
    (made : ∀ entry ∈ past, ∀ call ∈ entry.2, call ∈ s.history) (new : ¬History.Began engine s.history)
    (dial : Dial) : past.lastWish engine dial = none := by
  rw [Log.lastWish, List.findSome?_eq_none_iff]
  intro entry hm
  have silent : entry.2.any (·.accepts engine dial) = false := by
    rw [List.any_eq_false]
    intro call hc ha
    have hh := made entry (List.mem_reverse.mp hm) call hc
    exact new (hs.solo.began_of_on hh (Call.on_of_accepted (Option.ne_none_iff_isSome.mpr ha)))
  simp [granted?, silent]

theorem Remembers.snoc_made (hr : Remembers past s) (h : Steps op.asks s calls t) :
    ∀ entry ∈ past ++ [(op, calls)], ∀ call ∈ entry.2, call ∈ t.history := by
  intro entry hm call hc
  rw [h.history]
  rcases List.mem_append.mp hm with hm | hm
  · exact List.mem_append_right _ (hr.made entry hm call hc)
  · rw [List.mem_singleton.mp hm] at hc
    exact List.mem_append_left _ hc

/-- In the midst of an operation, with the calls it has made so far. -/
theorem steps_recalls (h : Steps op.asks s calls t) (hs : Sound s) (hr : Remembers past s) :
    ∀ active, t.active = some active → ∀ dial, t.applied.memory dial =
      Log.lastWish active.engine dial (past ++ [(op, calls)]) := by
  induction h with
  | refl =>
    intro active live dial
    rw [lastWish_snoc]
    exact hr.recalls active live dial
  | @snoc calls call t u rest h ih =>
    -- A call that grants nothing leaves the log as it was.
    have quiet {engine : Engine} {dial : Dial} (hn : call.accepted? engine dial = none) :
        Log.lastWish engine dial (past ++ [(op, call :: calls)]) = Log.lastWish engine dial (past ++ [(op, calls)]) := by
      rw [lastWish_snoc, lastWish_snoc, granted?, granted?, List.any_cons, Call.accepts, hn]
      rfl
    cases h with
    | failed dark =>
      intro active live
      rw [dark] at live
      cases live
    | @launched engine dark new =>
      rintro _ ⟨⟩ dial
      have ht := (rest.sound hs).solo
      rw [engine?_of_dark dark] at ht
      rw [quiet rfl, Applied.memory_empty]
      exact (lastWish_of_not_began (rest.sound hs) (hr.snoc_made rest) (ht.not_began new) dial).symm
    | stopped => exact nofun
    | @voiced active native accepted live =>
      rintro _ ⟨⟩ dial
      rw [quiet (Call.accepted?_of_voice _ _ _)]
      exact ih active live dial
    | @told active wish accepted live asked =>
      intro other ho dial
      obtain rfl : other = active := by
        rw [live] at ho
        exact (Option.some.inj ho).symm
      by_cases own : wish.dial = dial
      · cases accepted with
        | false =>
          rw [quiet rfl]
          exact ih other live dial
        | true =>
          subst own
          have granted :
              granted? other.engine wish.dial (op, .set other.engine wish.setting true :: calls) =
                some wish := by
            simp [granted?, Call.accepts, Call.accepted?_self, asked]
          rw [lastWish_snoc, granted]
          exact Applied.memory_note_self _ _
      · rw [quiet (Call.accepted?_of_ne own _), ← ih other live dial]
        cases accepted with
        | false => rfl
        | true => exact Applied.memory_note_of_ne _ own

theorem op_remembers (hs : Sound s) (hr : Remembers past s) (op : Op) :
    Remembers (past ++ [(op, s.history.since (op.run house s).history)]) (op.run house s) := by
  obtain ⟨calls, h⟩ := op.run_steps house s
  have hc : s.history.since (op.run house s).history = calls.reverse := by
    rw [h.history, History.since_append]
  rw [hc]
  refine ⟨?_, ?_⟩
  · intro entry hm call hcall
    rcases List.mem_append.mp hm with hm | hm
    · exact hr.snoc_made h entry (List.mem_append_left _ hm) call hcall
    · obtain rfl := List.mem_singleton.mp hm
      exact hr.snoc_made h (op, calls) (by simp) call (List.mem_reverse.mp hcall)
  · intro active live dial
    rw [steps_recalls h hs hr active live dial, lastWish_snoc, lastWish_snoc, granted?, granted?, List.any_reverse]

theorem operate_sound (house : House) (ops : List Op) (hs : Sound s) : Sound (operate house ops s) := by
  induction ops generalizing s with
  | nil => exact hs
  | cons op ops ih =>
    obtain ⟨calls, h⟩ := op.run_steps house s
    exact ih (h.sound hs)

theorem operate_remembers (house : House) (ops : List Op) (hs : Sound s) (hr : Remembers past s) :
    Remembers (past ++ log house ops s) (operate house ops s) := by
  induction ops generalizing s past with
  | nil =>
    rw [log, List.append_nil]
    exact hr
  | cons op ops ih =>
    obtain ⟨calls, h⟩ := op.run_steps house s
    have := ih (h.sound hs) (op_remembers hs hr op)
    rw [List.append_assoc] at this
    exact this

/-! ### What a request passes on -/

def due (s : Session) (p : Prosody) (dial : Dial) : Bool :=
  s.applied.memory dial ≠ some (p.wish dial)

theorem due_eq_false {p : Prosody} {dial : Dial} :
    s.due p dial = false ↔ s.applied.memory dial = some (p.wish dial) := by
  simp [due]

theorem pass_of_not_due {p : Prosody} {dial : Dial} (h : s.due p dial = false) :
    s.pass house (p.wish dial) = s := by
  rw [pass, Prosody.dial_wish, if_pos (due_eq_false.mp h)]

theorem pass_of_due {active : Active} {p : Prosody} {dial : Dial} (live : s.active = some active)
    (h : s.due p dial = true) : ∃ accepted, s.pass house (p.wish dial) =
      { s with
        applied := if accepted then s.applied.note (p.wish dial) else s.applied
        history := .set active.engine (p.wish dial).setting accepted :: s.history } := by
  have differs : s.applied.memory dial ≠ some (p.wish dial) := by
    intro same
    rw [due_eq_false.mpr same] at h
    cases h
  rw [pass, Prosody.dial_wish, if_neg differs, heed_of_live live]
  exact ⟨_, rfl⟩

/-- What is due of these dials is asked for in turn, and remembered if it is accepted. -/
theorem pass_all {active : Active} {p : Prosody} {dials : List Dial} (distinct : dials.Nodup)
    (live : s.active = some active)
    (ht : t = dials.foldl (fun s dial => s.pass house (p.wish dial)) s) : ∃ accepts : Dial → Bool,
    t.active = some active ∧
    t.history = ((dials.filter (s.due p)).map fun dial =>
        Call.set active.engine (p.wish dial).setting (accepts dial)).reverse ++ s.history ∧
    ∀ dial, t.applied.memory dial =
      if dial ∈ dials ∧ s.due p dial = true ∧ accepts dial = true then some (p.wish dial)
      else s.applied.memory dial := by
  induction dials generalizing s with
  | nil =>
    subst ht
    exact ⟨fun _ => false, live, rfl, by simp⟩
  | cons first dials ih =>
    obtain ⟨apart, distinct⟩ := List.nodup_cons.mp distinct
    rw [List.foldl_cons] at ht
    cases hd : s.due p first with
    | false =>
      rw [pass_of_not_due hd] at ht
      obtain ⟨accepts, ha, hh, hr⟩ := ih distinct live ht
      refine ⟨accepts, ha, ?_, ?_⟩
      · rw [hh, List.filter_cons_of_neg (by simp [hd])]
      · intro dial
        rw [hr]
        by_cases same : dial = first
        · simp [same, hd]
        · simp [same]
    | true =>
      obtain ⟨accepted, hs⟩ : ∃ accepted, s.pass house (p.wish first) = _ := pass_of_due live hd
      have kept {dial : Dial} (other : dial ≠ first) :
          (s.pass house (p.wish first)).applied.memory dial = s.applied.memory dial := by
        rw [hs]
        cases accepted
        · rfl
        · exact Applied.memory_note_of_ne _ (by simpa using other.symm)
      have ne {dial : Dial} (hm : dial ∈ dials) : dial ≠ first := by
        rintro rfl
        exact apart hm
      obtain ⟨accepts, ha, hh, hr⟩ := ih distinct (by rw [hs]; exact live) ht
      refine ⟨fun dial => if dial = first then accepted else accepts dial, ha, ?_, ?_⟩
      · have same : dials.filter ((s.pass house (p.wish first)).due p) = dials.filter (s.due p) :=
          List.filter_congr fun dial hm => by rw [due, due, kept (ne hm)]
        have calls : (dials.filter (s.due p)).map (fun dial =>
              Call.set active.engine (p.wish dial).setting (if dial = first then accepted else accepts dial)) =
            (dials.filter (s.due p)).map fun dial =>
              Call.set active.engine (p.wish dial).setting (accepts dial) :=
          List.map_congr_left fun dial hm => by rw [if_neg (ne (List.mem_filter.mp hm).1)]
        rw [hh, same, List.filter_cons_of_pos hd, List.map_cons, List.reverse_cons, calls, List.append_assoc, hs]
        simp
      · intro dial
        rw [hr]
        by_cases own : dial = first
        · subst own
          simp only [apart, false_and, if_false, List.mem_cons_self, hd, true_and, if_true]
          rw [hs]
          cases accepted
          · rfl
          · simpa using Applied.memory_note_self s.applied (p.wish dial)
        · rw [due, kept own, ← due]
          simp [own]

/-- A session without an engine remembers nothing. With one, it remembers of each dial the value that this
    instance has accepted last, and nothing if it has accepted none; so a request makes the engine change
    exactly what differs, in order and once each. Then the engine is set as the request asks, but for what it
    has just refused: that stays as it was, and is due again. -/
theorem memory_exact {h : History} {told : Log} (rests : h.Solo none) (ran : operate house ops { history := h } = s)
    (logged : log house ops { history := h } = told) :
    (s.active = none → s.applied = {}) ∧
    ∀ active, s.active = some active →
      (∀ dial, s.applied.memory dial = told.lastWish active.engine dial ∧
        s.history.effective active.engine dial = (s.applied.memory dial).map Wish.setting) ∧
      ∀ p t, s.applyParams house p = t → ∃ accepts : Dial → Bool,
        t.active = some active ∧
        t.history = ((Dial.all.filter fun dial => told.lastWish active.engine dial ≠ some (p.wish dial)).map fun dial =>
          Call.set active.engine (p.wish dial).setting (accepts dial)).reverse ++ s.history ∧
        ∀ dial,
          if told.lastWish active.engine dial ≠ some (p.wish dial) ∧ accepts dial = false then
            t.history.effective active.engine dial = s.history.effective active.engine dial ∧
              t.applied.memory dial = s.applied.memory dial
          else
            t.history.effective active.engine dial = some (p.wish dial).setting ∧
              t.applied.memory dial = some (p.wish dial) := by
  have hs := operate_sound house ops (start_sound rests)
  have hr := operate_remembers house ops (start_sound rests) (start_remembers h)
  rw [ran] at hs hr
  rw [logged, List.nil_append] at hr
  refine ⟨hs.dark, ?_⟩
  intro active live
  have recalls := hr.recalls active live
  have heeded := hs.heeded active live
  refine ⟨fun dial => ⟨recalls dial, heeded dial⟩, ?_⟩
  intro p t ht
  obtain ⟨calls, steps⟩ := applyParams_steps house p s
  rw [ht] at steps
  have after := steps.sound hs
  rw [applyParams_eq] at ht
  obtain ⟨accepts, ha, hh, hrec⟩ := pass_all (by decide) live ht.symm
  have due_iff (dial : Dial) : s.due p dial = true ↔ told.lastWish active.engine dial ≠ some (p.wish dial) := by
    rw [due, recalls, decide_eq_true_iff]
  refine ⟨accepts, ha, ?_, ?_⟩
  · rw [hh]
    congr 4
    funext dial
    rw [due, recalls]
  · intro dial
    have all : dial ∈ Dial.all := by cases dial <;> decide
    have remembered := hrec dial
    rw [after.heeded active ha]
    split
    · rename_i refused
      rw [if_neg (by simp [refused.2])] at remembered
      exact ⟨by rw [remembered, heeded], remembered⟩
    · rename_i heard
      have now : t.applied.memory dial = some (p.wish dial) := by
        by_cases same : told.lastWish active.engine dial = some (p.wish dial)
        · rw [remembered, if_neg fun h => (due_iff dial).mp h.2.1 same, recalls, same]
        · have accepted : accepts dial = true := by simpa using fun h => heard ⟨same, h⟩
          rw [remembered, if_pos ⟨all, (due_iff dial).mpr same, accepted⟩]
      exact ⟨by rw [now]; rfl, now⟩

end

/-- An engine that takes all but pitches. -/
def tonelessHouse : House where
  library := {
    engines := fun _ _ => ["espeak"]
    start := fun _ _ _ _ => .ok 22050
    voices := fun _ _ => []
    accepts := fun _ _ setting => setting.dial? ≠ some .pitch }
  libDir := "/lib"
  catalog := ⟨["espeak"], []⟩
  preferred := "espeak"

/-- A rate beyond the scale, which is accepted, and a pitch, which is refused. -/
def beyondScale : Prosody := { rate := 150, pitch := 7 }

/-- The same request again asks for the pitch alone. -/
theorem memory_exact_refusedPitch :
    ∃ s active accepted, operate tonelessHouse [.selectDefault, .params beyondScale] {} = s ∧
      s.active = some active ∧ s.applied.memory .speed = some (.rate 150) ∧
      s.history.effective active.engine .speed = some (.speed (speedOfRate 150)) ∧
      (s.applyParams tonelessHouse beyondScale).history =
        .set active.engine (.pitch (factorOfPitch 7)) accepted :: s.history := by
  have live : (operate tonelessHouse [.selectDefault, .params beyondScale] {}).active =
      some { engine := { number := 0, name := "espeak", sampleRate := 22050 } } := by rfl
  obtain ⟨-, sound⟩ := @memory_exact tonelessHouse _ _ _ _ .nil rfl rfl
  obtain ⟨remembered, forwards⟩ := sound _ live
  obtain ⟨accepts, -, calls, -⟩ := forwards beyondScale _ rfl
  refine ⟨_, _, accepts .pitch, rfl, live, rfl, ?_, ?_⟩
  · exact (remembered .speed).2
  · exact calls

end Session

end Orator
