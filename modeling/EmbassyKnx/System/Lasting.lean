import EmbassyKnx.System.Upkeep
import EmbassyKnx.Transport.Isolation

/-!
# How long a connection lasts

The ticker of an open connection fires and nothing comes of it: `connection_timeout` returns at
once. A connection is open until its peer closes it.

* `interim_openWith`: which responses are sent over an open connection.
* `only_peer_closes`: nothing else ends it.
-/

namespace EmbassyKnx

open Rust Async App Connection

namespace System

section

variable {p : Profile} {R : Account} {a : IndividualAddress} {s s' : System}
  {fs : List (ℕ × Frame)} {owed : ℕ} {log : List Frame}

/-- The frame is a T_Connect or a T_Disconnect from `a`. -/
def Closes (a : IndividualAddress) (f : Frame) : Prop :=
  (connectionService f = some .connect ∨ connectionService f = some .disconnect) ∧
    f.srcAddr = .ok a

instance (a : IndividualAddress) (f : Frame) : Decidable (Closes a f) :=
  inferInstanceAs (Decidable (_ ∧ _))

/-- The actions for the other frames leave a connection to `a` open. -/
theorem openWith_of_not_closes {c : Connection} {x : SizedFrame} {service : ConnectionService}
    {act' : App.Action} (hc : OpenWith a c) (hservice : connectionService x.frame = some service)
    (hnot : ¬Closes a x.frame) (hact' : stepAction p c service x = .ok act') :
    OpenWith a (act'.completed c x) ∧ OpenWith a (act'.interim c) := by
  obtain ⟨hstate, hpeer⟩ := hc
  have hcloses (hsrc : c.srcAddr = some x.srcAddr) : x.frame.srcAddr = .ok a := by
    rw [x.srcAddr_frame, Option.some.inj (hsrc.symm.trans hpeer)]
  have hcondition := stepAction_condition hact'
  cases act' with
  | a1 => exact absurd hcondition.1 hstate
  | a5 =>
    obtain ⟨-, hsrc, rfl⟩ := hcondition
    exact absurd ⟨.inr hservice, hcloses hsrc⟩ hnot
  | a6 =>
    obtain ⟨-, hsrc, rfl⟩ := hcondition
    exact absurd ⟨.inl hservice, hcloses hsrc⟩ hnot
  | _ => exact ⟨⟨hstate, hpeer⟩, hstate, hpeer⟩

/-- An action that leaves the connection open for its response is not for a frame that closes it. -/
theorem interim_openWith {c : Connection} {x : SizedFrame} {service : ConnectionService}
    {act' : App.Action} {r : StandardFrame} (hservice : connectionService x.frame = some service)
    (hact' : stepAction p c service x = .ok act') (hr : act'.response c x = some r) :
    OpenWith a (act'.interim c) ↔ OpenWith a c ∧ ¬Closes a x.frame := by
  have hclosed : act' = .a6 → ¬OpenWith a (act'.interim c) := by
    rintro rfl ⟨hstate, -⟩
    exact hstate rfl
  have hinterim : act' ≠ .a6 → act'.interim c = c := by
    intro hne
    cases act' with
    | a6 => exact absurd rfl hne
    | _ => rfl
  constructor
  · intro hopen
    have hne : act' ≠ .a6 := fun h6 => hclosed h6 hopen
    rw [hinterim hne] at hopen
    refine ⟨hopen, ?_⟩
    rintro ⟨hconnect | hdisconnect, hsrc⟩
    · rw [hservice] at hconnect
      cases hconnect
      rw [x.srcAddr_frame] at hsrc
      have hreconnects : Reconnects c .connect x :=
        ⟨hopen.1, hopen.2.trans (congrArg some (Except.ok.inj hsrc).symm), rfl⟩
      rw [hreconnects.stepAction_eq] at hact'
      exact hne (Except.ok.inj hact').symm
    · rw [hservice] at hdisconnect
      cases hdisconnect
      simpa using reply_of_stepAction hact' hr
  · rintro ⟨hopen, hnot⟩
    exact (openWith_of_not_closes hopen hservice hnot hact').2

theorem attempt_openWith {t : Attempt} (ht : t.Happens p)
    (hservice : connectionService t.frame.frame = some t.service) (hnot : ¬Closes a t.frame.frame)
    (hc : OpenWith a t.before.connection) : OpenWith a t.after.connection := by
  obtain ⟨act', hact', hafter⟩ := ht.leaves
  obtain ⟨hcompleted, hinterim⟩ := openWith_of_not_closes hc hservice hnot hact'
  rcases hafter with hafter | ⟨-, hafter⟩
  · rw [hafter]
    exact hcompleted
  · rw [hafter]
    exact hinterim

/-- The connection to `a` lasts from behind the frames `before`, as long as none closes it. -/
def LastsFrom (a : IndividualAddress) (before : List Frame) : Account := fun fs _ c =>
  ∃ new, fs = before ++ new ∧ ((∀ f ∈ new, ¬Closes a f) → OpenWith a c)

theorem kept_lastsFrom (p : Profile) (a : IndividualAddress) (before : List Frame) :
    Account.Kept p (LastsFrom a before) where
  pass := by
    rintro fs out c f ⟨new, rfl, hlasts⟩ -
    refine ⟨new ++ [f], List.append_assoc _ _ _, fun hnew => hlasts fun f' hf' => ?_⟩
    exact hnew f' (List.mem_append_left _ hf')
  attempt := by
    rintro fs out t ⟨new, rfl, hlasts⟩ ht hservice
    refine ⟨new ++ [t.frame.frame], List.append_assoc _ _ _, fun hnew => ?_⟩
    have hnot := hnew t.frame.frame (List.mem_append_right _ (List.mem_singleton.mpr rfl))
    exact attempt_openWith ht hservice hnot (hlasts fun f' hf' => hnew f' (List.mem_append_left _ hf'))

/-- It lasts from in front of a turn that waits, whose frame does not close it. -/
theorem paused_openWith {g : Handling} (h : g.Paused p) (hopen : OpenWith a g.now) :
    OpenWith a g.before ∧ ∀ f ∈ g.frame.toList, ¬Closes a f := by
  rcases h with ⟨c, rfl⟩ | ⟨f, ⟨x, service, act', r, hframe, hservice, hact', hr, -, hnow, -⟩, -⟩
  · exact ⟨hopen, by simp [Handling.start]⟩
  · rw [hnow] at hopen
    obtain ⟨hbefore, hnot⟩ := (interim_openWith hservice hact' hr).mp hopen
    refine ⟨hbefore, fun f' hf' => ?_⟩
    rw [hframe] at hf'
    obtain rfl := List.mem_singleton.mp hf'
    exact hnot

/-- An open connection lasts from where another task runs. -/
theorem Sound.lastsFrom (h : Sound p R s fs owed log) (hpaused : Paused p R s fs owed log)
    (hother : s.running ≠ .app) (hopen : OpenWith a s.connection) : ∃ before pending,
      fs.map Prod.snd = before ++ pending ∧ (∀ f ∈ pending, ¬Closes a f) ∧
        Sound p (LastsFrom a before) s fs owed log ∧
          Paused p (LastsFrom a before) s fs owed log := by
  have hsound {before : List Frame}
      (happ : AppSound p (LastsFrom a before) s.connection s.app.frame fs owed log
        s.answered.length s.app.control) : Sound p (LastsFrom a before) s fs owed log :=
    { h with app := happ }
  have houtside (hselect : ∀ x, s.app.control ≠ .select x)
      (happ : AppSound p (LastsFrom a (fs.map Prod.snd)) s.connection s.app.frame fs owed log
        s.answered.length s.app.control) : ∃ before pending,
      fs.map Prod.snd = before ++ pending ∧ (∀ f ∈ pending, ¬Closes a f) ∧
        Sound p (LastsFrom a before) s fs owed log ∧
          Paused p (LastsFrom a before) s fs owed log :=
    ⟨fs.map Prod.snd, [], (List.append_nil _).symm, List.forall_mem_nil _, hsound happ,
      fun _ x hx => absurd hx (hselect x)⟩
  have hsettled (h : Settled R s.connection fs log s.answered.length) :
      Settled (LastsFrom a (fs.map Prod.snd)) s.connection fs log s.answered.length :=
    ⟨⟨[], (List.append_nil _).symm, fun _ => hopen⟩, h.answers⟩
  have happ := h.app
  cases hcontrol : s.app.control with
  | select x =>
    obtain ⟨g, before, ⟨hmeets, hturn, howed⟩, hg⟩ := hpaused hother x hcontrol
    obtain ⟨hbefore, hnot⟩ := paused_openWith (a := a) hg (hturn.now ▸ hopen)
    obtain ⟨out, -, hreplies⟩ := hturn.recorded
    have hlasts : InTurn p (LastsFrom a before) s.connection s.app.frame fs log s.answered.length g
        before :=
      ⟨hturn.now, hturn.frame, hturn.taken,
        ⟨out, ⟨[], (List.append_nil _).symm, fun _ => hbefore⟩, hreplies⟩, hturn.queued,
        hturn.assigned, hturn.answers⟩
    refine ⟨before, g.frame.toList, hturn.taken, hnot, hsound ?_, ?_⟩
    · rw [hcontrol]
      exact ⟨g, before, hmeets, hlasts, howed⟩
    · intro _ x' hx'
      rw [hcontrol] at hx'
      cases hx'
      exact ⟨g, before, ⟨hmeets, hlasts, howed⟩, hg⟩
  | indicate x =>
    rw [hcontrol] at happ
    apply houtside (by simp [hcontrol])
    rw [hcontrol]
    exact ⟨happ.1, hsettled happ.2⟩
  | take =>
    rw [hcontrol] at happ
    apply houtside (by simp [hcontrol])
    rw [hcontrol]
    exact ⟨happ.1, hsettled happ.2⟩
  | respond x =>
    rw [hcontrol] at happ
    apply houtside (by simp [hcontrol])
    rw [hcontrol]
    exact ⟨hsettled happ.1, happ.2⟩

/-- From any state in which another task runs and the connection is open to `a`: whatever comes
    in, however long it takes and in whatever order the tasks run, it stays open to `a` until the
    application task takes a T_Connect or a T_Disconnect from `a`. -/
theorem only_peer_closes (h : Reachable p s) (hother : s.running ≠ .app)
    (hopen : OpenWith a s.connection) (hrun : Relation.ReflTransGen (Step p) s s')
    (hother' : s'.running ≠ .app)
    (hnew : ∀ x ∈ s'.taken.drop s.taken.length, ¬Closes a x.2) : OpenWith a s'.connection := by
  obtain ⟨log, hsends⟩ := h.sends
  obtain ⟨fs, owed, hsound, hpaused⟩ := hsends.paused (kept_attempted p) (attempted_nil p)
  obtain ⟨before, pending, hfs, hpending, hlasts, hpauses⟩ := hsound.lastsFrom hpaused hother hopen
  obtain ⟨fs', owed', log', hprefix, hsound', hpaused'⟩ :=
    hlasts.run (kept_lastsFrom p a before) hpauses hrun
  obtain ⟨more, rfl⟩ := hprefix
  obtain ⟨new, hnewFrames, hopen'⟩ := hsound'.account (kept_lastsFrom p a before) hpaused' hother'
  rw [List.map_append, hfs, List.append_assoc] at hnewFrames
  obtain rfl := List.append_cancel_left hnewFrames
  apply hopen'
  intro f hf
  rcases List.mem_append.mp hf with hf | hf
  · exact hpending f hf
  · obtain ⟨x, hx, rfl⟩ := List.mem_map.mp hf
    apply hnew
    rw [hsound'.taken_eq, hsound.taken_eq, List.drop_left]
    exact hx

end

/-! ### A rejected connection -/

/-- 1.1.2 tries to connect in vain, and the driver is polled again. -/
def disturbed : System :=
  attempt .dev (.poll .driver) (settle .dev 200 (attempt .dev (.poll .app)
    (listen .dev 200 otherConnectTelegram polled)))

theorem leads_disturbed : Relation.ReflTransGen (Step .dev) polled disturbed :=
  (leads_listen _ _ _).trans ((leads_attempt _ _).trans
    ((leads_settle _ _).trans (leads_attempt _ _)))

set_option maxRecDepth 100000 in
theorem disturbed_taken : disturbed.running = .driver ∧ disturbed.taken.length = 2 ∧
    ∀ x ∈ disturbed.taken.drop polled.taken.length, ¬Closes ⟨0x1101⟩ x.2 := by
  decide +kernel

set_option maxRecDepth 100000 in
theorem polled_openWith : OpenWith ⟨0x1101⟩ polled.connection := by
  unfold OpenWith
  decide +kernel

theorem only_peer_closes_polled : disturbed.taken.length = 2 ∧
    OpenWith ⟨0x1101⟩ disturbed.connection := by
  obtain ⟨hrunning, htaken, hnew⟩ := disturbed_taken
  have hother : polled.running ≠ .app := by
    rw [polled_idle.1]
    decide
  have hother' : disturbed.running ≠ .app := by
    rw [hrunning]
    decide
  exact ⟨htaken, only_peer_closes reachable_polled hother polled_openWith leads_disturbed hother' hnew⟩

end System

end EmbassyKnx
