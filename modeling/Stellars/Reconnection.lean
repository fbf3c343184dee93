import Stellars.ConnectionAttempts

/-!
# Reconnections and notifications

A reconnection is to make up for what was missed, by sending a resync to every subscriber,
and to leave only its own client listening. It does so in every run in which no event of a
replaced client interferes, and fails to do so when a late event does.
-/
namespace Stellars.Broadcaster
open GuardedRuns

variable {F : Type}

/-- At most one client listens, no NOTIFY was handed to a subscriber twice, and once the
current client works again nobody is owed a resync. Until then a reconnection is on its
way, or the failed client has yet to say so. -/
structure Delivers (s : Broadcaster F) : Prop where
  single : ∀ k k', (s.clients k).Live → (s.clients k').Live → k = k'
  once : s.handed.Nodup
  resynced : s.connectedFlag = true → s.current.link = .connected → s.owed = []
  underway : s.owed ≠ [] → s.shuttingDown = true ∨
    s.connectedFlag = true ∧ s.current.link = .failed ∨
      ∃ job ∈ s.awaited, job.reconnects = true

/-- No event is acted on while the current client is connected, and no reconnection gives
up a client that stays connected and listens already. -/
def Orderly (s : Broadcaster F) : BroadcasterOp F → Prop
  | .emit k => (s.clients k).link = .failed → s.connectedFlag = true → s.shuttingDown = false →
      s.current.link ≠ .connected
  | .settle (.reconnectListen k i channel) false => .reconnectListen k i channel ∈ s.awaited →
      ¬ (s.clients k).Live
  | _ => True

section Steps

variable {s : Broadcaster F} {k : ℕ} {job : Awaited F}

/-- The broadcaster delivers what it owes. -/
theorem Inv.delivers (h : s.Inv) : s.Delivers := by
  refine ⟨?_, h.recorded.once, ?_, ?_⟩
  · intro k k' hk hk'
    rw [h.linked.abandoned k hk, h.linked.abandoned k' hk']
  · intro hflag hlink
    obtain hfailed | ⟨-, -, howed⟩ := h.linked.working hflag
    · rw [hfailed] at hlink
      cases hlink
    · exact howed
  · intro howed
    obtain ⟨p, hp⟩ := List.exists_mem_of_ne_nil _ howed
    have hlisten := h.recorded.listed p (h.recorded.owedTo p hp)
    cases hflag : s.connectedFlag with
    | true =>
        obtain hfailed | ⟨-, -, hnone⟩ := h.linked.working hflag
        · exact .inr (.inl ⟨rfl, hfailed⟩)
        · exact absurd hnone howed
    | false =>
        cases hstop : s.shuttingDown with
        | true => exact .inl rfl
        | false =>
            obtain ⟨job, hjob, hopens⟩ := List.countP_pos_iff.mp
              (h.pending hflag hstop (List.ne_nil_of_mem hlisten))
            refine .inr (.inr ⟨job, hjob, ?_⟩)
            have hexpected := h.linked.expected job hjob
            cases job with
            | connect | subscribeConnect => exact absurd hexpected.2.2 (List.ne_nil_of_mem hlisten)
            | subscribeListen | close => cases hopens
            | reconnectTimer | reconnectConnect | reconnectListen => rfl

/-! ### The steps -/

theorem inv_init : (init : Broadcaster F).Inv := by
  refine ⟨⟨fun _ _ => rfl, ?_, fun _ => ⟨rfl, rfl, rfl⟩, ?_, ?_⟩, ⟨?_, ?_, List.nodup_nil, ?_,
    List.nodup_nil⟩, Nat.zero_le _, fun _ => rfl, fun _ => rfl, ?_⟩
  · rintro k ⟨hlink, -⟩
    cases hlink
  · intro hflag
    cases hflag
  · intro job hjob
    cases hjob
  · intro p hp
    cases hp
  · intro p hp
    cases hp
  · intro x hx
    cases hx
  · intro _ _ hlisten
    exact absurd rfl hlisten

theorem channels_setLink (s : Broadcaster F) (k j : ℕ) (link : Link) :
    ((s.setLink k link).clients j).channels = (s.clients j).channels := by
  simp only [setLink, setClient, Function.update_apply]
  split_ifs with hj
  · rw [hj]
  · rfl

theorem link_setLink (s : Broadcaster F) (k j : ℕ) (link : Link) :
    ((s.setLink k link).clients j).link = if j = k then link else (s.clients j).link := by
  simp only [setLink, setClient, Function.update_apply]
  split_ifs <;> rfl

/-- The failure of a connected client leaves every other link alone. -/
theorem clients_fail (hk : (s.clients k).link = .connected) {j : ℕ}
    (hj : (s.clients j).link ≠ .connected) : (s.setLink k .failed).clients j = s.clients j := by
  have hne : j ≠ k := fun hjk => hj (hjk ▸ hk)
  simp only [setLink, setClient, Function.update_of_ne hne]

theorem live_of_fail {j : ℕ} (h : ((s.setLink k .failed).clients j).Live) :
    (s.clients j).Live := by
  obtain ⟨hlink, hchannels⟩ := h
  rw [channels_setLink] at hchannels
  rw [link_setLink] at hlink
  split_ifs at hlink
  exact ⟨hlink, hchannels⟩

theorem made_fail {j : ℕ} (h : (s.clients j).link = .connected ∨ (s.clients j).link = .failed) :
    ((s.setLink k .failed).clients j).link = .connected ∨
      ((s.setLink k .failed).clients j).link = .failed := by
  rw [link_setLink]
  split_ifs
  · exact .inr rfl
  · exact h

/-- A connected client fails; no attempt that goes on needed it fresh or connecting. -/
theorem Linked.fail (h : s.Linked) (hk : (s.clients k).link = .connected) :
    (s.setLink k .failed).Linked := by
  refine ⟨?_, fun j hj => h.abandoned j (live_of_fail hj), ?_, ?_, ?_⟩
  · intro j hj
    have hfresh := h.unmade j hj
    rw [clients_fail hk (by rw [hfresh]; decide), hfresh]
  · intro hfresh
    rw [current, link_setLink] at hfresh
    split_ifs at hfresh
    rw [current, channels_setLink]
    exact h.unused hfresh
  · intro hflag
    rw [current, link_setLink, channels_setLink]
    split_ifs
    · exact .inl rfl
    · exact h.working hflag
  · intro job hjob
    have hexpected := h.expected job hjob
    cases job with
    | reconnectTimer => exact fun hlive => hexpected (live_of_fail hlive)
    | reconnectConnect j =>
        refine ⟨hexpected.1, ?_⟩
        rw [clients_fail hk (by rw [hexpected.2]; decide), hexpected.2]
    | reconnectListen j i channel =>
        refine ⟨hexpected.1, hexpected.2.1, made_fail hexpected.2.2.1, ?_⟩
        rw [channels_setLink]
        exact hexpected.2.2.2
    | connect j | subscribeConnect j =>
        refine ⟨hexpected.1, ?_, hexpected.2.2⟩
        rw [clients_fail hk (by rw [hexpected.2.1]; decide), hexpected.2.1]
    | subscribeListen j =>
        refine hexpected.imp_right fun hfailed => ?_
        rw [clients_fail hk (by rw [hfailed]; decide), hfailed]
    | close j => exact ⟨hexpected.1, hexpected.2.1, made_fail hexpected.2.2⟩

theorem Inv.fail (h : s.Inv) (hk : (s.clients k).link = .connected) :
    (s.setLink k .failed).Inv := by
  refine ⟨h.linked.fail hk, h.recorded, h.atMostOne, h.idle, ?_, h.pending⟩
  intro hfresh
  rw [current, link_setLink] at hfresh
  split_ifs at hfresh
  exact h.untouched hfresh

theorem inv_emit (h : s.Inv) (hlink : s.connectedFlag = true → s.shuttingDown = false →
    s.current.link ≠ .connected) : s.handleDisconnect.Inv := by
  unfold handleDisconnect
  split_ifs with hstop hflag
  · exact h
  · have hfailed : s.current.link = .failed := by
      obtain hfailed | ⟨hconnected, -⟩ := h.linked.working hflag
      · exact hfailed
      · exact absurd hconnected (hlink hflag (by simpa using hstop))
    have hdown : Between { s with connectedFlag := false } := by
      refine ⟨⟨h.linked.unmade, h.linked.abandoned, ?_, ?_, ?_⟩, h.recorded,
        h.idle hflag, rfl, ?_⟩
      · intro hfresh
        exact absurd (hfailed.symm.trans hfresh) (by decide)
      · intro hup
        cases hup
      · refine h.linked.expected_of_none (h.idle hflag) rfl ?_ ?_
        · rintro k (⟨-, rfl⟩ | hk)
          · exact .inr hfailed
          · exact .inr hk
        · exact fun hstopped hk => ⟨hstopped, rfl, hk⟩
      · intro hfresh
        exact absurd (hfailed.symm.trans hfresh) (by decide)
    refine hdown.scheduleReconnect ?_
    rintro ⟨hconnected, -⟩
    exact absurd (hfailed.symm.trans hconnected) (by decide)
  · exact h

/-- A first connection is opened on a client that was not used before. -/
theorem inv_clientConnect (h : s.Inv) (hopens : job.opens = true)
    (hjob : ∀ s' : Broadcaster F, s'.client = s.client → s'.listening = [] →
      s'.clients s.client = ⟨.connecting, []⟩ → s'.Expected job) :
    (s.clientConnect job).Inv := by
  unfold clientConnect
  split_ifs with hfresh
  · obtain ⟨hchannels, hlisten, hdown⟩ := h.linked.unused hfresh
    have hclient : (s.setLink s.client .connecting).clients s.client = ⟨.connecting, []⟩ := by
      rw [← hchannels]
      simp only [setLink, setClient, Function.update_self, current]
    have hbetween : Between (s.setLink s.client .connecting) := by
      refine h.linked.setCurrent h.recorded (h.untouched hfresh) hdown ?_ (by simp)
      rw [hfresh]
      rintro (hlink | hlink) <;> cases hlink
    exact hbetween.await hopens (hjob _ rfl hlisten hclient)
  · exact h

theorem inv_close (h : s.Inv) : s.close.Inv := by
  have hstopped : Inv { s with shuttingDown := true } := by
    refine ⟨⟨h.linked.unmade, h.linked.abandoned, h.linked.unused, h.linked.working, ?_⟩,
      h.recorded, h.atMostOne, h.idle, h.untouched, ?_⟩
    · intro job hjob
      have hexpected := h.linked.expected job hjob
      cases job with
      | close k => exact ⟨rfl, hexpected.2⟩
      | _ => exact hexpected
    · intro _ hstop
      cases hstop
  unfold Broadcaster.close
  split_ifs with hflag
  · refine ⟨⟨h.linked.unmade, h.linked.abandoned, h.linked.unused, h.linked.working, ?_⟩,
      h.recorded, h.atMostOne, h.idle, h.untouched, hstopped.pending⟩
    intro job hjob
    obtain rfl | hjob := List.mem_cons.mp hjob
    · refine ⟨rfl, rfl, ?_⟩
      exact (h.linked.working hflag).symm.imp_left And.left
    · exact hstopped.linked.expected job hjob
  · exact hstopped

theorem receivers_eq (h : s.Linked) (channel : String) :
    s.receivers channel = [] ∨ s.receivers channel = [s.client] := by
  have hclient : ∀ k ∈ s.receivers channel, k = s.client := by
    intro k hk
    have hk := (List.mem_filter.mp hk).2
    simp only [decide_eq_true_eq] at hk
    exact h.abandoned k ⟨hk.1, List.ne_nil_of_mem hk.2⟩
  have hnodup : (s.receivers channel).Nodup := List.nodup_range.filter _
  cases hreceivers : s.receivers channel with
  | nil => exact .inl rfl
  | cons k rest =>
      rw [hreceivers] at hclient hnodup
      right
      have hrest : rest = [] := by
        by_contra hne
        obtain ⟨j, hj⟩ := List.exists_mem_of_ne_nil rest hne
        have hjk : j = k := (hclient j (List.mem_cons_of_mem _ hj)).trans
          (hclient k List.mem_cons_self).symm
        exact (List.nodup_cons.mp hnodup).1 (hjk ▸ hj)
      rw [hrest, hclient k List.mem_cons_self]

/-- A current client that listens on every channel receives what has subscribers. -/
theorem subscribersOf_eq_nil (hlisted : ∀ p ∈ s.subscribers, p.1 ∈ s.listening) {channel : String}
    (hlink : s.current.link = .connected) (hlisten : ∀ c ∈ s.listening, c ∈ s.current.channels)
    (hreceivers : s.receivers channel = []) : s.subscribersOf channel = [] := by
  by_contra hne
  obtain ⟨p, hp⟩ := List.exists_mem_of_ne_nil _ hne
  obtain ⟨hp, hchannel⟩ := List.mem_filter.mp hp
  have hmem : channel ∈ s.current.channels := by
    have := hlisten _ (hlisted p hp)
    rwa [of_decide_eq_true hchannel] at this
  have hclient : s.client ∈ s.receivers channel :=
    List.mem_filter.mpr ⟨List.mem_range.mpr (Nat.lt_succ_self _), decide_eq_true ⟨hlink, hmem⟩⟩
  rw [hreceivers] at hclient
  cases hclient

theorem inv_notify (h : s.Inv) (channel : String) : (s.notify channel).Inv := by
  refine ⟨⟨h.linked.unmade, h.linked.abandoned, h.linked.unused, ?_, ?_⟩,
    ⟨h.recorded.listed, ?_, h.recorded.nodup, ?_, ?_⟩, h.atMostOne, h.idle, h.untouched,
    h.pending⟩
  · intro hflag
    refine (h.linked.working hflag).imp_right fun ⟨hlink, hlisten, howed⟩ => ⟨hlink, hlisten, ?_⟩
    simp only [notify, howed]
    split_ifs with hreceivers
    · exact subscribersOf_eq_nil h.recorded.listed hlink hlisten hreceivers
    · rfl
  · exact h.linked.expected
  · intro p hp
    simp only [notify] at hp ⊢
    split_ifs at hp
    · obtain hp | hp := List.mem_append.mp hp
      · exact h.recorded.owedTo p hp
      · exact List.mem_of_mem_filter hp
    · exact h.recorded.owedTo p hp
  · intro x hx
    obtain hx | hx := List.mem_append.mp hx
    · exact (h.recorded.numbered x hx).trans (Nat.lt_succ_self _)
    · obtain ⟨_, _, hx⟩ := List.mem_flatMap.mp hx
      obtain ⟨p, _, rfl⟩ := List.mem_map.mp hx
      exact Nat.lt_succ_self _
  · have hnew : ((s.subscribersOf channel).map (s.notified, ·)).Nodup :=
      (h.recorded.nodup.filter _).map fun _ _ hpq => (Prod.mk.inj hpq).2
    refine List.nodup_append.mpr ⟨h.recorded.once, ?_, ?_⟩
    · obtain hnone | hone := receivers_eq h.linked channel
      · simp [hnone]
      · simpa [hone] using hnew
    · intro x hx y hy hxy
      obtain ⟨_, _, hy⟩ := List.mem_flatMap.mp hy
      obtain ⟨p, _, rfl⟩ := List.mem_map.mp hy
      have hlt := h.recorded.numbered x hx
      rw [hxy] at hlt
      exact absurd hlt (lt_irrefl _)

/-! ### Going on after an `await` -/

theorem kept_of_connecting {link : Link} (h : s.current.link = .connecting) :
    s.current.link = .connected ∨ s.current.link = .failed → link = s.current.link := by
  rw [h]
  rintro (hlink | hlink) <;> cases hlink

theorem setLink_connected (h : s.Between) (hk : k = s.client)
    (hclient : s.clients k = ⟨.connecting, []⟩) :
    (s.setLink k .connected).Between ∧ (s.setLink k .connected).current = ⟨.connected, []⟩ := by
  subst hk
  refine ⟨h.setCurrent (kept_of_connecting (by rw [current, hclient])) (by simp), ?_⟩
  simp [current, setLink, setClient, hclient]

theorem setLink_failed (h : s.Between) (hk : k = s.client)
    (hclient : s.clients k = ⟨.connecting, []⟩) :
    (s.setLink k .failed).Between ∧ ¬ (s.setLink k .failed).current.Live := by
  subst hk
  refine ⟨h.setCurrent (kept_of_connecting (by rw [current, hclient])) (by simp), ?_⟩
  rintro ⟨hlink, -⟩
  simp [current, setLink, setClient] at hlink

/-- The first connection succeeds: nothing is listened to yet. -/
theorem inv_connected (h : s.Between) (hexpected : k = s.client ∧
    s.clients k = ⟨.connecting, []⟩ ∧ s.listening = []) :
    Inv { s.setLink k .connected with connectedFlag := true } := by
  obtain ⟨hk, hclient, hlisten⟩ := hexpected
  obtain ⟨hbetween, hcurrent⟩ := setLink_connected h hk hclient
  refine hbetween.up (by rw [hcurrent]) ?_ ?_
  · intro c hc
    rw [show (s.setLink k .connected).listening = [] from hlisten] at hc
    cases hc
  · refine List.eq_nil_iff_forall_not_mem.mpr fun p hp => ?_
    have hchannel := h.recorded.listed p (h.recorded.owedTo p hp)
    rw [hlisten] at hchannel
    cases hchannel

/-- The first connection fails, and nothing follows. -/
theorem inv_notConnected (h : s.Between) (hexpected : k = s.client ∧
    s.clients k = ⟨.connecting, []⟩ ∧ s.listening = []) : (s.setLink k .failed).Inv :=
  (setLink_failed h hexpected.1 hexpected.2.1).1.inv (.inr hexpected.2.2)

theorem mem_addListening {s : Broadcaster F} {channel c : String} :
    c ∈ (s.addListening channel).listening ↔ c ∈ s.listening ∨ c = channel := by
  by_cases hmem : channel ∈ s.listening
  · simp only [addListening, if_pos hmem]
    exact ⟨.inl, fun hc => hc.elim id fun heq => heq ▸ hmem⟩
  · simp [addListening, hmem]

section Answered

variable (s) (channel : String)

/-- The current client answers a `LISTEN` of `subscribe`. -/
theorem current_answered : ((s.listensOn s.client channel).addListening channel).current =
    ⟨s.current.link, channel :: s.current.channels⟩ := by
  simp [current, listensOn, setClient, addListening]

theorem clients_answered {j : ℕ} (hj : j ≠ s.client) :
    ((s.listensOn s.client channel).addListening channel).clients j = s.clients j := by
  simp only [addListening, listensOn, setClient, Function.update_of_ne hj]

theorem link_answered (j : ℕ) :
    (((s.listensOn s.client channel).addListening channel).clients j).link =
      (s.clients j).link := by
  by_cases hj : j = s.client
  · subst hj
    have hlink := congrArg PgClient.link (current_answered s channel)
    exact hlink
  · rw [clients_answered s channel hj]

end Answered

theorem Linked.answered (h : s.Linked) (hnone : s.awaited.countP Awaited.opens = 0)
    (hflag : s.connectedFlag = true) (hlink : s.current.link = .connected) (channel : String) :
    ((s.listensOn s.client channel).addListening channel).Linked := by
  have hother := fun j => clients_answered s channel (j := j)
  refine ⟨h.unmade_of rfl hother, h.abandoned_of rfl hother, ?_, ?_, ?_⟩
  · intro hfresh
    rw [current_answered, hlink] at hfresh
    cases hfresh
  · intro _
    rw [current_answered]
    refine (h.working hflag).imp_right fun ⟨_, hlisten, howed⟩ => ⟨hlink, ?_, howed⟩
    intro c hc
    obtain hc | rfl := mem_addListening.mp hc
    · exact List.mem_cons_of_mem _ (hlisten c hc)
    · exact List.mem_cons_self
  · refine h.expected_of_none hnone rfl ?_ ?_
    · rintro k (hup | hfailed)
      · exact .inl hup
      · exact .inr (by rw [link_answered, hfailed])
    · intro hstop hk
      exact ⟨hstop, rfl, by rwa [current, link_answered]⟩

theorem inv_addListening (h : s.Inv) (hflag : s.connectedFlag = true)
    (hlink : s.current.link = .connected) (channel : String) :
    ((s.listensOn s.client channel).addListening channel).Inv := by
  refine ⟨h.linked.answered (h.idle hflag) hflag hlink channel,
    ⟨?_, h.recorded.owedTo, h.recorded.nodup, h.recorded.numbered, h.recorded.once⟩,
    h.atMostOne, h.idle, ?_, ?_⟩
  · exact fun p hp => mem_addListening.mpr (.inl (h.recorded.listed p hp))
  · intro hfresh
    rw [current_answered, hlink] at hfresh
    cases hfresh
  · intro hdown
    exact absurd (hdown.symm.trans hflag) (by decide)

/-- The client has ended, and nothing replaces it on the way down. -/
theorem inv_ended (h : s.Inv) (hstop : s.shuttingDown = true) (hlink : s.current.link = .failed) :
    Inv { s with connectedFlag := false } := by
  refine ⟨⟨h.linked.unmade, h.linked.abandoned, ?_, ?_, ?_⟩, h.recorded, h.atMostOne,
    ?_, h.untouched, ?_⟩
  · intro hfresh
    exact absurd (hlink.symm.trans hfresh) (by decide)
  · intro hflag
    cases hflag
  · intro job hjob
    have hexpected := h.linked.expected job hjob
    cases job with
    | subscribeListen k channel fn =>
        right
        obtain ⟨-, rfl⟩ | hfailed := hexpected
        · exact hlink
        · exact hfailed
    | _ => exact hexpected
  · intro hflag
    cases hflag
  · intro _ hrunning
    exact absurd (hstop.symm.trans hrunning) (by decide)

theorem inv_closed (h : s.Inv) (hexpected : s.Expected (.close k)) :
    Inv { s.setLink k .failed with connectedFlag := false } := by
  obtain ⟨hstop, rfl, hconnected | hfailed⟩ := hexpected
  · exact inv_ended (h.fail hconnected) hstop (by simp [current, setLink, setClient])
  · have hself : s.setLink s.client .failed = s := by
      simp only [setLink, setClient, ← hfailed, Function.update_eq_self]
    rw [hself]
    exact inv_ended h hstop hfailed

variable [DecidableEq F]

theorem inv_relistened (h : s.Between) {i : ℕ} {channel : String}
    (hexpected : s.Expected (.reconnectListen k i channel))
    (hlink : (s.clients k).link = .connected) :
    ((s.listensOn k channel).relisten (i + 1)).Inv := by
  obtain ⟨rfl, hchannel, -, hlisten⟩ := hexpected
  have hcurrent : (s.listensOn s.client channel).current =
      { s.current with channels := channel :: s.current.channels } := by
    simp [current, listensOn, setClient]
  have hbetween : (s.listensOn s.client channel).Between :=
    h.setCurrent (fun _ => rfl) (by rw [hlink]; decide)
  refine hbetween.relisten (by rw [hcurrent]; exact hlink) ?_
  intro c hc
  rw [hcurrent]
  rw [List.take_add_one, show (s.listensOn s.client channel).listening = s.listening from rfl,
    hchannel] at hc
  obtain hc | hc := List.mem_append.mp hc
  · exact List.mem_cons_of_mem _ (hlisten c hc)
  · rw [Option.toList_some, List.mem_singleton] at hc
    rw [hc]
    exact List.mem_cons_self

theorem inv_addSubscriber (h : s.Inv) {channel : String} (hlisten : channel ∈ s.listening)
    (fn : F) : (s.addSubscriber channel fn).Inv := by
  unfold addSubscriber
  split_ifs with hmem
  · exact h
  · refine ⟨⟨h.linked.unmade, h.linked.abandoned, h.linked.unused, h.linked.working, ?_⟩,
      ⟨?_, ?_, ?_, h.recorded.numbered, h.recorded.once⟩, h.atMostOne, h.idle, h.untouched,
      h.pending⟩
    · exact h.linked.expected
    · intro p hp
      obtain hp | hp := List.mem_append.mp hp
      · exact h.recorded.listed p hp
      · rw [List.mem_singleton.mp hp]
        exact hlisten
    · exact fun p hp => List.mem_append_left _ (h.recorded.owedTo p hp)
    · rw [List.nodup_append]
      refine ⟨h.recorded.nodup, List.nodup_singleton _, ?_⟩
      intro p hp q hq hpq
      rw [hpq, List.mem_singleton.mp hq] at hp
      exact hmem hp

theorem inv_subscribeConnected (h : s.Inv) (hflag : s.connectedFlag = true) (channel : String)
    (fn : F) : (s.subscribeConnected channel fn).Inv := by
  unfold subscribeConnected
  split_ifs with hlisten
  · exact inv_addSubscriber h hlisten fn
  · refine ⟨⟨h.linked.unmade, h.linked.abandoned, h.linked.unused, h.linked.working, ?_⟩,
      h.recorded, h.atMostOne, h.idle, h.untouched, h.pending⟩
    intro job hjob
    obtain rfl | hjob := List.mem_cons.mp hjob
    · exact .inl ⟨hflag, rfl⟩
    · exact h.linked.expected job hjob
  · exact h

theorem inv_unsubscribe (h : s.Inv) (channel : String) (fn : F) :
    (s.unsubscribe channel fn).Inv := by
  refine ⟨⟨h.linked.unmade, h.linked.abandoned, h.linked.unused, ?_, ?_⟩,
    ⟨?_, ?_, h.recorded.nodup.filter _, h.recorded.numbered, h.recorded.once⟩, h.atMostOne,
    h.idle, h.untouched, h.pending⟩
  · intro hflag
    refine (h.linked.working hflag).imp_right fun ⟨hlink, hlisten, howed⟩ => ⟨hlink, hlisten, ?_⟩
    simp only [unsubscribe, howed, List.filter_nil]
  · exact h.linked.expected
  · exact fun p hp => h.recorded.listed p (List.mem_of_mem_filter hp)
  · intro p hp
    obtain ⟨hp, hne⟩ := List.mem_filter.mp hp
    exact List.mem_filter.mpr ⟨h.recorded.owedTo p hp, hne⟩

/-- A channel is listened to only once the current client has answered. -/
theorem inv_subscribed (h : s.Inv) {channel : String} (fn : F)
    (hexpected : s.Expected (.subscribeListen k channel fn))
    (hlink : (s.clients k).link = .connected) :
    (((s.listensOn k channel).addListening channel).addSubscriber channel fn).Inv := by
  obtain ⟨hflag, rfl⟩ | hfailed := hexpected
  · refine inv_addSubscriber (inv_addListening h hflag hlink channel) ?_ fn
    exact mem_addListening.mpr (.inr rfl)
  · exact absurd (hfailed.symm.trans hlink) (by decide)

theorem inv_resume (h : s.Inv) {ok : Bool} (hjob : job ∈ s.awaited)
    (hcan : s.canSettle job ok = true) (horderly : s.Orderly (.settle job ok)) :
    (resume { s with awaited := s.awaited.erase job } job ok).Inv := by
  have hexpected : Expected { s with awaited := s.awaited.erase job } job :=
    h.linked.expected job hjob
  cases job with
  | reconnectTimer => exact (h.between hjob rfl).reconnect hexpected
  | reconnectConnect k =>
      have hbetween := h.between hjob rfl
      cases ok with
      | true =>
          obtain ⟨hup, hcurrent⟩ := setLink_connected hbetween hexpected.1 hexpected.2
          refine hup.relisten (by rw [hcurrent]) ?_
          simp
      | false =>
          obtain ⟨hdown, hlive⟩ := setLink_failed hbetween hexpected.1 hexpected.2
          exact hdown.scheduleReconnect hlive
  | reconnectListen k i channel =>
      have hbetween := h.between hjob rfl
      cases ok with
      | true => exact inv_relistened hbetween hexpected (of_decide_eq_true hcan)
      | false =>
          refine hbetween.scheduleReconnect ?_
          have hlive := horderly hjob
          rwa [hexpected.1] at hlive
  | connect k =>
      have hbetween := h.between hjob rfl
      cases ok with
      | true => exact inv_connected hbetween hexpected
      | false => exact inv_notConnected hbetween hexpected
  | subscribeConnect k channel fn =>
      have hbetween := h.between hjob rfl
      cases ok with
      | true => exact inv_subscribeConnected (inv_connected hbetween hexpected) rfl channel fn
      | false => exact inv_notConnected hbetween hexpected
  | subscribeListen k channel fn =>
      cases ok with
      | true => exact inv_subscribed (h.erase rfl) fn hexpected (of_decide_eq_true hcan)
      | false => exact h.erase rfl
  | close k =>
      cases ok with
      | true => exact inv_closed (h.erase rfl) hexpected
      | false => exact h.erase rfl

theorem inv_step (h : s.Inv) {op : BroadcasterOp F} (horderly : s.Orderly op) :
    (s.step op).Inv := by
  cases op with
  | lose k =>
      simp only [step]
      split_ifs with hk
      · exact h.fail hk
      · exact h
  | emit k =>
      simp only [step]
      split_ifs with hk
      · exact inv_emit h (horderly hk)
      · exact h
  | notify channel => exact inv_notify h channel
  | connect =>
      simp only [step, Broadcaster.connect]
      split_ifs
      · exact h
      · exact inv_clientConnect h rfl fun s' hs' hlisten hclient => ⟨hs'.symm, hclient, hlisten⟩
  | subscribe channel fn =>
      simp only [step, Broadcaster.subscribe]
      split_ifs with hflag
      · exact inv_subscribeConnected h hflag channel fn
      · exact inv_clientConnect h rfl fun s' hs' hlisten hclient => ⟨hs'.symm, hclient, hlisten⟩
  | unsubscribe channel fn => exact inv_unsubscribe h channel fn
  | close => exact inv_close h
  | settle job ok =>
      simp only [step]
      split_ifs with hjob
      · exact inv_resume h hjob.1 hjob.2 horderly
      · exact h

end Steps

/-- In every run in which no event of a replaced client is acted on while the current one
is connected, and no reconnection gives up a client that goes on listening, reconnections
neither duplicate nor silently lose notifications. -/
theorem reconnects_deliver [DecidableEq F] {ops : List (BroadcasterOp F)}
    (h : Along step Orderly init ops) : Visits step Delivers init ops :=
  visits_of_along (fun _ => Inv.delivers) (fun _ _ hinv horderly => inv_step hinv horderly)
    inv_init h

section Scenario

/-- Client 0 is lost, says so, and is replaced by client 1. -/
def reconnection : List (BroadcasterOp ℕ) :=
  [.connect, .settle (.connect 0) true, .subscribe "markets_changed" 7,
    .settle (.subscribeListen 0 "markets_changed" 7) true, .lose 0, .notify "markets_changed",
    .emit 0, .settle .reconnectTimer true, .settle (.reconnectConnect 1) true,
    .settle (.reconnectListen 1 0 "markets_changed") true]

theorem reconnects_deliver_reconnection :
    Along step Orderly init reconnection ∧ Visits step Delivers init reconnection := by
  have h : Along step Orderly init reconnection :=
    ⟨trivial, trivial, trivial, trivial, trivial, trivial,
      fun _ _ _ => by decide +kernel, trivial, trivial, trivial, trivial⟩
  exact ⟨h, reconnects_deliver h⟩

/-- Client 0 was lost with an error and emits `end` only after client 1 has taken over:
client 1 is not failed, but client 2 is made to replace it. -/
def lateEnd : List (BroadcasterOp ℕ) :=
  reconnection ++ [.emit 0, .settle .reconnectTimer true, .settle (.reconnectConnect 2) true,
    .settle (.reconnectListen 2 0 "markets_changed") true, .notify "markets_changed"]

theorem notify_handed_twice :
    ¬∀ ops : List (BroadcasterOp ℕ), Visits step Delivers init ops := by
  intro h
  have honce : (run step init lateEnd).handed.Nodup := (h lateEnd).last.once
  revert honce
  decide +kernel

/-- Client 1 stays connected when its second `LISTEN` is refused, and client 2 joins it. -/
example : ((run step init
    ([.connect, .settle (.connect 0) true,
      .subscribe "a" 7, .settle (.subscribeListen 0 "a" 7) true,
      .subscribe "b" 7, .settle (.subscribeListen 0 "b" 7) true,
      .lose 0, .emit 0, .settle .reconnectTimer true, .settle (.reconnectConnect 1) true,
      .settle (.reconnectListen 1 0 "a") true, .settle (.reconnectListen 1 1 "b") false,
      .settle .reconnectTimer true, .settle (.reconnectConnect 2) true,
      .settle (.reconnectListen 2 0 "a") true] : List (BroadcasterOp ℕ))).receivers "a") =
    [1, 2] := by
  decide +kernel

end Scenario

end Stellars.Broadcaster
