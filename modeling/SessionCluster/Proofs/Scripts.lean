/-
  Scripts — runs of processes that are computed.

  A script says what happens to a process, cue by cue: which call is made, which member goes on,
  how far time passes, what the surroundings do to the node.  A cue that cannot be followed is
  left out, so every script whose cues the circumstances admit is a run (`Process.runs_follow`),
  and what is said of all runs can be tried on any of them.
-/
import SessionCluster.Proofs.Processes

namespace SessionCluster

/-- What a script has happen to a process. -/
inductive Cue where
  /-- A call is made. -/
  | call (c : Call)
  /-- The member at a place begins, or goes on. -/
  | poll (i : Nat)
  /-- The task at a place gives way to the one that it names. -/
  | renew (i : Nat)
  /-- Time passes, up to a tick. -/
  | pass (t : Nat)
  /-- The surroundings change the node. -/
  | change (f : Node → Node)

/-- Whether circumstances admit a cue, whatever the process is. -/
def Circumstances.Admits (C : Circumstances) : Cue → Prop
  | .call c => C.calls c
  | .change f => ∀ n, C.changes n (f n)
  | .poll _ | .renew _ | .pass _ => True

/-- Whether time may pass from one tick to another while a member waits. -/
def Member.lets (m : Member) (now t : Nat) : Bool :=
  match Machine.deadline? m.rest with
  | some d => t ≤ max d now
  | none => true

theorem Member.lets_sound {m : Member} {now t : Nat} (h : m.lets now t = true) :
    Punctual (Machine.deadline? m.rest) now t := by
  unfold lets at h
  intro d hd
  rw [hd] at h
  exact of_decide_eq_true h

namespace Process

/-- The process after the member at a place has begun or gone on. -/
def poll (p : Process) (i : Nat) : Process :=
  match p.members.drop i with
  | ⟨r, none, _, q⟩ :: ys => polled p.history (p.members.take i) r p.history.now q ys
  | ⟨r, some first, _, .wait ready d q⟩ :: ys =>
    if ready p.history.now.state || Activity.reached d p.history.now.tick then
      polled p.history (p.members.take i) r first q ys
    else p
  | _ => p

/-- The process after the task at a place has given way. -/
def renew (p : Process) (i : Nat) : Process :=
  match p.members.drop i with
  | ⟨.task _, _, _, .done (some w)⟩ :: ys =>
    ⟨p.history, p.members.take i ++ .new (.task w) :: ys⟩
  | _ => p

/-- The process after a cue. -/
def heed (p : Process) : Cue → Process
  | .call c => { p with members := p.members ++ [.new (.call c)] }
  | .poll i => p.poll i
  | .renew i => p.renew i
  | .pass t =>
    if p.history.now.tick ≤ t ∧ p.members.all (·.lets p.history.now.tick t) then
      { p with history := p.history.push ⟨t, p.history.now.state⟩ }
    else p
  | .change f =>
    { p with history := p.history.push ⟨p.history.now.tick, f p.history.now.state⟩ }

/-- The process after a script. -/
def follow (p : Process) (script : List Cue) : Process := script.foldl heed p

variable {C : Circumstances}

/-- A process, with the member at a place among the others. -/
theorem eq_of_drop {p : Process} {i : Nat} {m : Member} {ys : List Member}
    (h : p.members.drop i = m :: ys) : (⟨p.history, p.members.take i ++ m :: ys⟩ : Process) = p := by
  rw [← h, List.take_append_drop]

/-- A member that begins or goes on takes a step, if it can. -/
theorem step_poll (p : Process) (i : Nat) : p.poll i = p ∨ Step C p (p.poll i) := by
  unfold poll
  split
  · -- it begins
    rename_i r last q ys hm
    have hstep : Step C ⟨p.history, p.members.take i ++ ⟨r, none, last, q⟩ :: ys⟩
        (polled p.history (p.members.take i) r p.history.now q ys) := .begin
    rw [eq_of_drop hm] at hstep
    exact .inr hstep
  · rename_i r first last ready d q ys hm
    split
    · -- what it has waited for has come
      rename_i hr
      have hstep : Step C ⟨p.history, p.members.take i ++ ⟨r, some first, last, .wait ready d q⟩ :: ys⟩
          (polled p.history (p.members.take i) r first q ys) := .resume hr
      rw [eq_of_drop hm] at hstep
      exact .inr hstep
    · exact .inl rfl
  · exact .inl rfl

/-- A task that gives way takes a step, if it has named another. -/
theorem step_renew (p : Process) (i : Nat) : p.renew i = p ∨ Step C p (p.renew i) := by
  unfold renew
  split
  · rename_i w first last w' ys hm
    have hstep : Step C ⟨p.history, p.members.take i ++ ⟨.task w, first, last, .done (some w')⟩ :: ys⟩
        ⟨p.history, p.members.take i ++ .new (.task w') :: ys⟩ := .renew
    rw [eq_of_drop hm] at hstep
    exact .inr hstep
  · exact .inl rfl

/-- A cue is a step, or nothing at all. -/
theorem step_heed {cue : Cue} (hc : C.Admits cue) (p : Process) :
    p.heed cue = p ∨ Step C p (p.heed cue) := by
  cases cue with
  | call c => exact .inr (.call hc)
  | poll i => exact step_poll p i
  | renew i => exact step_renew p i
  | change f => exact .inr (.change (hc _))
  | pass t =>
    simp only [heed]
    split
    · rename_i h
      obtain ⟨ht, hall⟩ := h
      refine .inr (.pass ht fun m hm => ?_)
      exact Member.lets_sound (List.all_eq_true.mp hall m hm)
    · exact .inl rfl

/-- **Scripts are runs**, if the circumstances admit their cues. -/
theorem runs_follow (script : List Cue) :
    (∀ cue ∈ script, C.Admits cue) → ∀ p : Process, Runs C p (p.follow script) := by
  induction script with
  | nil => exact fun _ p => .refl
  | cons cue rest ih =>
    intro hall p
    have hrest := ih (fun c hc => hall c (List.mem_cons_of_mem _ hc)) (p.heed cue)
    rcases step_heed (C := C) (hall cue (List.mem_cons_self ..)) p with hnone | hstep
    · rw [hnone] at hrest
      show Runs C p ((p.heed cue).follow rest)
      rw [hnone]
      exact hrest
    · exact .head hstep hrest

end Process

end SessionCluster
