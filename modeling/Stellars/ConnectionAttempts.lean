import Stellars.Broadcaster

/-!
# Attempts at a connection

The broadcaster opens one connection at a time, the first one or a reconnection. Between
two awaits of an attempt the flag is down and nothing else is being opened. The invariant
says what each pending await may rely on when it is settled.
-/
namespace Stellars.Broadcaster

variable {F : Type}

/-- What is relied on while something is awaited. -/
def Expected (s : Broadcaster F) : Awaited F → Prop
  | .reconnectTimer => ¬ s.current.Live
  | .reconnectConnect k => k = s.client ∧ s.clients k = ⟨.connecting, []⟩
  | .reconnectListen k i channel => k = s.client ∧ s.listening[i]? = some channel ∧
      ((s.clients k).link = .connected ∨ (s.clients k).link = .failed) ∧
      ∀ c ∈ s.listening.take i, c ∈ (s.clients k).channels
  | .connect k => k = s.client ∧ s.clients k = ⟨.connecting, []⟩ ∧ s.listening = []
  | .subscribeConnect k _ _ => k = s.client ∧ s.clients k = ⟨.connecting, []⟩ ∧ s.listening = []
  | .subscribeListen k _ _ =>
      s.connectedFlag = true ∧ k = s.client ∨ (s.clients k).link = .failed
  | .close k => s.shuttingDown = true ∧ k = s.client ∧
      ((s.clients k).link = .connected ∨ (s.clients k).link = .failed)

/-- Only the current client listens. It is fresh before the first connection, and while
the flag is set it has failed or listens on every channel. -/
structure Linked (s : Broadcaster F) : Prop where
  unmade : ∀ k, s.client < k → s.clients k = ⟨.fresh, []⟩
  abandoned : ∀ k, (s.clients k).Live → k = s.client
  unused : s.current.link = .fresh →
    s.current.channels = [] ∧ s.listening = [] ∧ s.connectedFlag = false
  working : s.connectedFlag = true → s.current.link = .failed ∨
    s.current.link = .connected ∧ (∀ c ∈ s.listening, c ∈ s.current.channels) ∧ s.owed = []
  expected : ∀ job ∈ s.awaited, s.Expected job

/-- Subscribers are listed once, under channels that are listened to, and NOTIFYs are handed
out under their numbers. -/
structure Recorded (subscribers : List (String × F)) (listening : List String)
    (owed : List (String × F)) (notified : ℕ) (handed : List (ℕ × String × F)) : Prop where
  listed : ∀ p ∈ subscribers, p.1 ∈ listening
  owedTo : ∀ p ∈ owed, p ∈ subscribers
  nodup : subscribers.Nodup
  numbered : ∀ x ∈ handed, x.1 < notified
  once : handed.Nodup

/-- At most one connection is being opened, none while the flag is set, and one whenever a
broadcaster that has listened before is to come back. -/
structure Inv (s : Broadcaster F) : Prop where
  linked : s.Linked
  recorded : Recorded s.subscribers s.listening s.owed s.notified s.handed
  atMostOne : s.awaited.countP Awaited.opens ≤ 1
  idle : s.connectedFlag = true → s.awaited.countP Awaited.opens = 0
  untouched : s.current.link = .fresh → s.awaited.countP Awaited.opens = 0
  pending : s.connectedFlag = false → s.shuttingDown = false → s.listening ≠ [] →
    0 < s.awaited.countP Awaited.opens

/-- A state in the middle of opening a connection. -/
structure Between (s : Broadcaster F) : Prop where
  linked : s.Linked
  recorded : Recorded s.subscribers s.listening s.owed s.notified s.handed
  none : s.awaited.countP Awaited.opens = 0
  down : s.connectedFlag = false
  used : s.current.link ≠ .fresh

section Attempts

variable {s : Broadcaster F} {k : ℕ} {job : Awaited F}

theorem not_opens_of_none (h : s.awaited.countP Awaited.opens = 0) {job : Awaited F}
    (hjob : job ∈ s.awaited) : job.opens = false := by
  simpa using List.countP_eq_zero.mp h job hjob

theorem Between.await (h : s.Between) (hopens : job.opens = true) (hexpected : s.Expected job) :
    (s.await job).Inv := by
  have hcount : (s.await job).awaited.countP Awaited.opens = 1 := by
    simp [Broadcaster.await, h.none, hopens]
  refine ⟨⟨h.linked.unmade, h.linked.abandoned, h.linked.unused, h.linked.working, ?_⟩,
    h.recorded, hcount.le, ?_, ?_, ?_⟩
  · intro job' hjob'
    obtain rfl | hjob' := List.mem_cons.mp hjob'
    · exact hexpected
    · exact h.linked.expected job' hjob'
  · intro hflag
    exact absurd (h.down.symm.trans hflag) (by decide)
  · intro hfresh
    exact absurd hfresh h.used
  · intro _ _ _
    omega

/-- An attempt that ends needs no other when nothing is listened to, or on the way down. -/
theorem Between.inv (h : s.Between) (hend : s.shuttingDown = true ∨ s.listening = []) :
    s.Inv := by
  refine ⟨h.linked, h.recorded, by rw [h.none]; omega, fun _ => h.none, fun _ => h.none, ?_⟩
  intro _ hstop hlisten
  obtain hdown | hnil := hend
  · rw [hdown] at hstop
    cases hstop
  · exact absurd hnil hlisten

theorem Between.scheduleReconnect (h : s.Between) (hlive : ¬ s.current.Live) :
    s.scheduleReconnect.Inv := by
  unfold Broadcaster.scheduleReconnect
  split_ifs with hstop
  · exact h.inv (.inl hstop)
  · exact h.await rfl hlive

/-- What is awaited outside an attempt relies only on clients that have failed, or that
`close` is about to end. -/
theorem Linked.expected_of_none {s' : Broadcaster F} (h : s.Linked)
    (hnone : s.awaited.countP Awaited.opens = 0) (hjobs : s'.awaited = s.awaited)
    (hlisten : ∀ k, s.connectedFlag = true ∧ k = s.client ∨ (s.clients k).link = .failed →
      s'.connectedFlag = true ∧ k = s'.client ∨ (s'.clients k).link = .failed)
    (hclose : s.shuttingDown = true → s.current.link = .connected ∨ s.current.link = .failed →
      s'.shuttingDown = true ∧ s'.client = s.client ∧
        (s'.current.link = .connected ∨ s'.current.link = .failed)) :
    ∀ job ∈ s'.awaited, s'.Expected job := by
  intro job hjob
  rw [hjobs] at hjob
  have hclosed := not_opens_of_none hnone hjob
  have hexpected := h.expected job hjob
  cases job with
  | subscribeListen k channel fn => exact hlisten k hexpected
  | close k =>
      obtain ⟨hstop, rfl, hk⟩ := hexpected
      obtain ⟨hstop', hclient, hk'⟩ := hclose hstop hk
      rw [current, hclient] at hk'
      exact ⟨hstop', hclient.symm, hk'⟩
  | reconnectTimer | reconnectConnect | reconnectListen | connect | subscribeConnect =>
      cases hclosed

theorem Between.failed (h : s.Between)
    (hk : s.connectedFlag = true ∧ k = s.client ∨ (s.clients k).link = .failed) :
    (s.clients k).link = .failed := by
  obtain ⟨hflag, -⟩ | hfailed := hk
  · exact absurd (h.down.symm.trans hflag) (by decide)
  · exact hfailed

/-- Only the current client changes. -/
theorem Linked.unmade_of (h : s.Linked) {s' : Broadcaster F} (hclient : s'.client = s.client)
    (hother : ∀ j, j ≠ s.client → s'.clients j = s.clients j) :
    ∀ k, s'.client < k → s'.clients k = ⟨.fresh, []⟩ := by
  intro k hk
  rw [hclient] at hk
  rw [hother k (ne_of_gt hk)]
  exact h.unmade k hk

theorem Linked.abandoned_of (h : s.Linked) {s' : Broadcaster F} (hclient : s'.client = s.client)
    (hother : ∀ j, j ≠ s.client → s'.clients j = s.clients j) :
    ∀ k, (s'.clients k).Live → k = s'.client := by
  intro k hk
  rw [hclient]
  by_contra hne
  rw [hother k hne] at hk
  exact hne (h.abandoned k hk)

/-- The current client is fresh or connecting and goes on, or its link stays as it was. -/
theorem Linked.setCurrent (h : s.Linked)
    (hrecorded : Recorded s.subscribers s.listening s.owed s.notified s.handed)
    (hnone : s.awaited.countP Awaited.opens = 0) (hdown : s.connectedFlag = false) {c : PgClient}
    (hkeep : s.current.link = .connected ∨ s.current.link = .failed → c.link = s.current.link)
    (hused : c.link ≠ .fresh) : (s.setClient s.client c).Between := by
  have hcurrent : (s.setClient s.client c).current = c := by simp [current, setClient]
  have hother : ∀ j, j ≠ s.client → (s.setClient s.client c).clients j = s.clients j := by
    intro j hj
    simp only [setClient, Function.update_of_ne hj]
  refine ⟨⟨h.unmade_of rfl hother, h.abandoned_of rfl hother, ?_, ?_, ?_⟩, hrecorded, hnone,
    hdown, by rwa [hcurrent]⟩
  · intro hfresh
    rw [hcurrent] at hfresh
    exact absurd hfresh hused
  · intro hflag
    exact absurd (hdown.symm.trans hflag) (by decide)
  · refine h.expected_of_none hnone rfl ?_ ?_
    · rintro k (⟨hflag, -⟩ | hfailed)
      · exact absurd (hdown.symm.trans hflag) (by decide)
      · right
        by_cases hk : k = s.client
        · subst hk
          rw [show (s.setClient s.client c).clients s.client = c from hcurrent]
          exact (hkeep (.inr hfailed)).trans hfailed
        · rw [hother k hk, hfailed]
    · intro hstop hk
      exact ⟨hstop, rfl, by rwa [hcurrent, hkeep hk]⟩

theorem Between.setCurrent (h : s.Between) {c : PgClient}
    (hkeep : s.current.link = .connected ∨ s.current.link = .failed → c.link = s.current.link)
    (hused : c.link ≠ .fresh) : (s.setClient s.client c).Between :=
  h.linked.setCurrent h.recorded h.none h.down hkeep hused

/-- The attempt succeeds. -/
theorem Between.up (h : s.Between) (hlink : s.current.link = .connected)
    (hlisten : ∀ c ∈ s.listening, c ∈ s.current.channels) (howed : s.owed = []) :
    Inv { s with connectedFlag := true } := by
  refine ⟨⟨h.linked.unmade, h.linked.abandoned, ?_, ?_, ?_⟩, h.recorded,
    by simp [h.none], fun _ => h.none, ?_, ?_⟩
  · intro hfresh
    exact absurd hfresh h.used
  · intro _
    exact .inr ⟨hlink, hlisten, howed⟩
  · refine h.linked.expected_of_none h.none rfl ?_ ?_
    · exact fun k hk => .inr (h.failed hk)
    · exact fun hstop hk => ⟨hstop, rfl, hk⟩
  · intro hfresh
    exact absurd hfresh h.used
  · intro hdown
    cases hdown

/-- The timer fires: the failed client is left behind for a new one. -/
theorem Between.reconnect (h : s.Between) (hlive : ¬ s.current.Live) : s.reconnect.Inv := by
  unfold Broadcaster.reconnect
  split_ifs with hstop
  · exact h.inv (.inl hstop)
  · have hnew : Between ({ s with client := s.client + 1 }.setClient (s.client + 1)
        ⟨.connecting, []⟩) := by
      refine ⟨⟨?_, ?_, ?_, ?_, ?_⟩, h.recorded, h.none, h.down, by simp [current, setClient]⟩
      · intro k hk
        have hne : k ≠ s.client + 1 := ne_of_gt hk
        simp only [setClient] at hk ⊢
        rw [Function.update_of_ne hne]
        exact h.linked.unmade k (by omega)
      · intro k hk
        simp only [setClient] at hk ⊢
        by_contra hne
        rw [Function.update_of_ne hne] at hk
        rw [h.linked.abandoned k hk] at hk
        exact hlive hk
      · intro hfresh
        simp [current, setClient] at hfresh
      · intro hflag
        exact absurd (h.down.symm.trans hflag) (by decide)
      · refine h.linked.expected_of_none h.none rfl ?_ ?_
        · intro k hk
          have hfailed := h.failed hk
          have hne : k ≠ s.client + 1 := by
            rintro rfl
            rw [h.linked.unmade _ (Nat.lt_succ_self _)] at hfailed
            cases hfailed
          right
          simp only [setClient, Function.update_of_ne hne]
          exact hfailed
        · exact fun hstopped => absurd hstopped hstop
    exact hnew.await rfl ⟨rfl, by simp [setClient]⟩

variable [DecidableEq F]

theorem Between.relisten (h : s.Between) (hlink : s.current.link = .connected) {i : ℕ}
    (hlisten : ∀ c ∈ s.listening.take i, c ∈ s.current.channels) : (s.relisten i).Inv := by
  unfold Broadcaster.relisten
  split
  · next channel hchannel => exact h.await rfl ⟨rfl, hchannel, .inl hlink, hlisten⟩
  · next hend =>
      have howed : s.owed.filter (· ∉ s.subscribers) = [] := by
        simpa using h.recorded.owedTo
      have hcleared : Between { s with owed := s.owed.filter (· ∉ s.subscribers) } := by
        refine ⟨⟨h.linked.unmade, h.linked.abandoned, h.linked.unused, ?_, ?_⟩,
          ⟨h.recorded.listed, ?_, h.recorded.nodup, h.recorded.numbered, h.recorded.once⟩,
          h.none, h.down, h.used⟩
        · intro hflag
          exact absurd (h.down.symm.trans hflag) (by decide)
        · exact h.linked.expected
        · rw [howed]
          simp
      refine hcleared.up hlink ?_ howed
      rw [List.take_of_length_le (by simpa using hend)] at hlisten
      exact hlisten

/-- Leaving an attempt's last `await` behind. -/
theorem Inv.between (h : s.Inv) (hjob : job ∈ s.awaited) (hopens : job.opens = true) :
    Between { s with awaited := s.awaited.erase job } := by
  have hone : s.awaited.countP Awaited.opens = 1 := by
    have hpos := List.countP_pos_iff.mpr ⟨job, hjob, hopens⟩
    have hle := h.atMostOne
    omega
  have hnone : (s.awaited.erase job).countP Awaited.opens = 0 := by
    rw [List.countP_erase, if_pos ⟨hjob, hopens⟩, hone]
  refine ⟨⟨h.linked.unmade, h.linked.abandoned, h.linked.unused, h.linked.working, ?_⟩,
    h.recorded, hnone, ?_, ?_⟩
  · exact fun job' hjob' => h.linked.expected job' (List.mem_of_mem_erase hjob')
  · by_contra hflag
    rw [h.idle (by simpa using hflag)] at hone
    cases hone
  · intro hfresh
    rw [h.untouched hfresh] at hone
    cases hone

/-- Leaving any other `await` behind. -/
theorem Inv.erase (h : s.Inv) (hopens : job.opens = false) :
    Inv { s with awaited := s.awaited.erase job } := by
  have hcount : (s.awaited.erase job).countP Awaited.opens = s.awaited.countP Awaited.opens := by
    rw [List.countP_erase, if_neg (by simp [hopens]), Nat.sub_zero]
  refine ⟨⟨h.linked.unmade, h.linked.abandoned, h.linked.unused, h.linked.working, ?_⟩,
    h.recorded, ?_, ?_, ?_, ?_⟩
  · exact fun job' hjob' => h.linked.expected job' (List.mem_of_mem_erase hjob')
  · exact hcount.trans_le h.atMostOne
  · exact fun hflag => hcount.trans (h.idle hflag)
  · exact fun hfresh => hcount.trans (h.untouched hfresh)
  · exact fun hdown hstop hlisten => (h.pending hdown hstop hlisten).trans_eq hcount.symm

end Attempts

end Stellars.Broadcaster
