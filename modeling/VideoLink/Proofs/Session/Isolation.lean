import VideoLink.Proofs.Session.LaneEnds

/-! Without answers the two directions do not affect each other. Every state of a run with both of them has
the lane of a state of the run with one of them, so at the stop the two runs have measured the same. -/
namespace VideoLink.Session

variable {σ γ : Type} [Draws σ Nat] [Draws γ Span]

/-! One run. -/

section

variable {c : Config} {feeds : Duplex (Option (Feed σ γ))} {s t u : Session σ γ} {d : Direction}

theorem Reaches.live (h : s.Reaches t) (hs : s.Begins c feeds)
    (hudp : c.transport.protocol = .udp) (hrunning : t.summary? = none) :
    t.Live c t.events.now :=
  ⟨hudp, h.standing hs, h.accounted hs hrunning, h.routed hs hrunning, rfl⟩

theorem summary?_of_step? {now : Instant} {e : Event} {events : EventQueue Event}
    (hstep : s.step? = some t) (hpop : s.events.pop? = some ((now, e), events)) (he : e ≠ .stop) :
    t.summary? = none := by
  obtain ⟨hrunning, _, ⟨_, u, hopen, hmoves⟩ | ⟨_, hpop', _⟩⟩ := step_cases hstep
  · rw [hmoves.sameSetup.summary?, hopen.sameSetup.summary?]
    exact hrunning
  · rw [hpop] at hpop'
    cases hpop'
    exact absurd rfl he

def Due (s : Session σ γ) (d : Direction) : Prop :=
  ∃ now e events x, s.events.pop? = some ((now, e), events) ∧ s.happening? d e = some x ∧
    s.step? = some ((s.advanced events).handle now e)

/-- What is nothing to a direction comes to an end, and its lane stays the same until then. -/
theorem Reaches.exists_due (h : s.Reaches t) (hs : s.Begins c feeds)
    (hudp : c.transport.protocol = .udp) (hrunning : t.summary? = none) (d : Direction) :
    ∃ u, s.Reaches u ∧ u.summary? = none ∧ u.lane d = t.lane d ∧ u.Due d := by
  fun_induction runEvents t with
  | case1 t hend =>
    obtain ⟨_, _, _, _, hstep⟩ := h.pop? hs hrunning
    rw [hend] at hstep
    cases hstep
  | case2 t v hstep ih =>
    obtain ⟨_, now, e, events, hpop, rfl⟩ := step?_eq_some hstep
    cases hx : t.happening? d e with
    | some x => exact ⟨t, h, hrunning, rfl, now, e, events, x, hpop, hx, hstep⟩
    | none =>
      obtain ⟨_, hlane⟩ := (h.live hs hudp hrunning).handle_apart hpop hx
      have he : e ≠ .stop := by
        rintro rfl
        cases hx
      obtain ⟨u, hreach, hrun, hsame, hdue⟩ :=
        ih (.tail h hstep) (summary?_of_step? hstep hpop he)
      exact ⟨u, hreach, hrun, hsame.trans hlane, hdue⟩

theorem Leads.eq_of_step?_eq_none (h : s.Leads t) (h' : s.Leads u) (ht : t.step? = none)
    (hu : u.step? = none) : t = u := by
  have hunique : Relator.RightUnique fun s t : Session σ γ => s.step? = some t := by
    intro a b b' hb hb'
    exact Option.some.inj (hb.symm.trans hb')
  have hstuck : ∀ {a b : Session σ γ}, a.Leads b → a.step? = none → a = b := by
    intro a b hab ha
    rcases Relation.ReflTransGen.cases_head hab with heq | ⟨_, hstep, _⟩
    · exact heq
    · rw [ha] at hstep
      cases hstep
  rcases Relation.ReflTransGen.total_of_right_unique hunique h h' with htu | hut
  · exact hstuck htu ht
  · exact (hstuck hut hu).symm

end

/-! Two runs. -/

section

variable {c c' : Config} {feeds feeds' : Duplex (Option (Feed σ γ))} {s s' t : Session σ γ}
  {d : Direction}

/-- What one of two runs does next in a direction, the other one does as well. -/
theorem exists_step_agree {t' v : Session σ γ} (hs : s.Begins c feeds) (hs' : s'.Begins c' feeds')
    (hudp : c.transport.protocol = .udp) (hudp' : c'.transport.protocol = .udp)
    (h : s.Reaches t) (h' : s'.Reaches t') (hrunning' : t'.summary? = none)
    (hlane : t.lane d = t'.lane d) (hstep : t.step? = some v) (hrunning : v.summary? = none) :
    ∃ v', s'.Reaches v' ∧ v'.summary? = none ∧ v.lane d = v'.lane d := by
  obtain ⟨hrunningt, now, e, events, hpop, rfl⟩ := step?_eq_some hstep
  have hlive := h.live hs hudp hrunningt
  cases hx : t.happening? d e with
  | none => exact ⟨t', h', hrunning', (hlive.handle_apart hpop hx).2.trans hlane⟩
  | some x =>
    obtain ⟨u', hreach, hrunningu, hsame, now', e', events', x', hpop', hx', hstep'⟩ :=
      h'.exists_due hs' hudp' hrunning' d
    have hlane' : t.lane d = u'.lane d := hlane.trans hsame.symm
    obtain ⟨rfl, rfl, _⟩ := lane_advanced_agree hlane' hpop hpop' hx hx'
    have hne : x ≠ .stop := by
      rintro rfl
      obtain rfl : e = .stop := of_happening? hx
      obtain ⟨_, _, heq, _⟩ := onStop_eq (t.advanced events) now
      rw [handle, heq] at hrunning
      cases hrunning
    have hagree := handle_agree hlive (hreach.live hs' hudp' hrunningu) hlane' hpop hpop' hx hx' hne
    have he' : e' ≠ .stop := by
      rintro rfl
      cases hx'
      exact hne rfl
    exact ⟨_, .tail hreach hstep', summary?_of_step? hstep' hpop' he', hagree.lane⟩

/-- Every state of a run has the lane of a state of any other run that begins with the same lane. -/
theorem Reaches.exists_agree (h : s.Reaches t) (hs : s.Begins c feeds) (hs' : s'.Begins c' feeds')
    (hudp : c.transport.protocol = .udp) (hudp' : c'.transport.protocol = .udp)
    (hlane : s.lane d = s'.lane d) (hrunning : t.summary? = none) :
    ∃ t', s'.Reaches t' ∧ t'.summary? = none ∧ t.lane d = t'.lane d := by
  obtain ⟨_, _, _, _, hu, _⟩ := hs'.untouched
  refine (h.induct_running (P := fun t => s.Reaches t ∧
    ∃ t', s'.Reaches t' ∧ t'.summary? = none ∧ t.lane d = t'.lane d) hs hrunning
    ⟨.refl, _, .refl, hu.summary?, hlane⟩ ?_).2
  rintro u v - ⟨hreach, t', hreach', hrunning', hsame⟩ hstep hrun
  exact ⟨.tail hreach hstep,
    exists_step_agree hs hs' hudp hudp' hreach hreach' hrunning' hsame hstep hrun⟩

/-- Runs that begin with the same lane measure the same in its direction. -/
theorem Begins.run_agree (hs : s.Begins c feeds) (hs' : s'.Begins c' feeds')
    (hudp : c.transport.protocol = .udp) (hudp' : c'.transport.protocol = .udp)
    (hlane : s.lane d = s'.lane d) :
    s.run.2.generatorReport? d = s'.run.2.generatorReport? d ∧
      s.run.2.link.stats d = s'.run.2.link.stats d ∧
      s.run.2.monitor.flow? (videoFlow .udp d) = s'.run.2.monitor.flow? (videoFlow .udp d) := by
  obtain ⟨last, hlast, hstop, _⟩ := hs.run_stops
  obtain ⟨last', hlast', hstop', _⟩ := hs'.run_stops
  obtain ⟨t', hreach', hrunning', hsame⟩ :=
    hlast.exists_agree hs hs' hudp hudp' hlane hstop.running
  obtain ⟨u', hreach, hrunning, hsame', now', e', events', x', hpop', hx', hstep'⟩ :=
    hreach'.exists_due hs' hudp' hrunning' d
  obtain ⟨now, events, hpop, heq⟩ := hstop.stop
  have hagree : last.lane d = u'.lane d := hsame.trans hsame'.symm
  obtain ⟨rfl, rfl, _⟩ := lane_advanced_agree hagree hpop hpop' (x := .stop) rfl hx'
  obtain rfl : e' = .stop := of_happening? hx'
  have hover : ∀ {t : Session σ γ}, (∃ summary, t.summary? = some summary) → t.step? = none := by
    rintro t ⟨summary, hsummary⟩
    unfold step?
    rw [if_pos (by rw [hsummary]; rfl)]
  have hend : s'.run.2 = (u'.advanced events').onStop now := by
    have hstops : u'.Stops ((u'.advanced events').onStop now) :=
      ⟨hrunning, hstep', now, events', hpop', rfl⟩
    exact Leads.eq_of_step?_eq_none (.tail hlast' hstop'.step) (.tail hreach hstep')
      (hover hstop'.summary?) (hover hstops.summary?)
  rw [heq, hend]
  exact stop_agree (hlast.live hs hudp hstop.running) (hreach.live hs' hudp' hrunning) hagree hpop
    hpop'

end

/-- Without answers a direction is measured as if it were alone: a run that can be set up can be set up
without the other direction, and then it ends with the same statistics of the video, of its socket and
of its channel and the same record of its flow. -/
theorem direction_is_measured_as_if_alone {settings : Settings} {c : Config}
    (hc : settings.check = .ok c) (hudp : c.transport.protocol = .udp)
    {s : Session FrameSizes GapTimes} (hs : build? c = .ok s) (d : Direction) :
    ∃ s', build? (c.only d) = .ok s' ∧
      s'.run.2.generatorReport? d = s.run.2.generatorReport? d ∧
      s'.run.2.link.stats d = s.run.2.link.stats d ∧
      s'.run.2.monitor.flow? (videoFlow .udp d) = s.run.2.monitor.flow? (videoFlow .udp d) := by
  have hpositive := Settings.positive_of_check hc
  obtain ⟨s', hs'⟩ := exists_build?_only hpositive hs d
  obtain ⟨feeds, hbegins, hfeeds⟩ := begins_of_build? hpositive hs
  obtain ⟨feeds', hbegins', hfeeds'⟩ := begins_of_build? (hpositive.only d) hs'
  have hfeed : feeds'.get d = feeds.get d := by
    have hsame := (hfeeds' d).symm.trans ((c.feed?_only d).trans (hfeeds d))
    exact Except.ok.inj hsame
  have hlane := hbegins.lane_agree hbegins' hfeed
  exact ⟨s', hs', hbegins'.run_agree hbegins hudp hudp hlane.symm⟩

theorem brief_direction_is_measured_as_if_alone : ∃ s, build? (.brief .udp) = .ok s ∧
    ∀ d, ∃ s', build? ((Config.brief .udp).only d) = .ok s' ∧
      s'.run.2.generatorReport? d = s.run.2.generatorReport? d ∧
      s'.run.2.link.stats d = s.run.2.link.stats d ∧
      s'.run.2.monitor.flow? (videoFlow .udp d) = s.run.2.monitor.flow? (videoFlow .udp d) := by
  obtain ⟨s, hs⟩ : ∃ s, build? (.brief .udp) = .ok s := ⟨_, rfl⟩
  exact ⟨s, hs, direction_is_measured_as_if_alone (Settings.check_brief .udp) rfl hs⟩

end VideoLink.Session
