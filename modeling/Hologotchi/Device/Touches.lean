import Hologotchi.Device.Model

/-! What becomes of the touches: when each ends sent, acknowledged or displaced. -/
namespace Hologotchi.Device

open Touch Library

/-- The touches that the connection can still deliver. -/
def State.inFlight (s : State) : List Touch :=
  if s.hostConnected then s.inputChannel ++ s.server.held else []

/-- Every classified gesture is in exactly one place: sent with its whole frame, acknowledged,
displaced, or still on its way. -/
structure Settled (s : State) : Prop where
  frames : s.frames.map some = s.sent.map fun t => encodeInputFrame t.1
  once : ∀ t ∈ s.classified.zipIdx,
    s.sent.count t + s.acknowledged.count t + s.displaced.count t + s.inFlight.count t = 1

/-- A connection ends with an empty channel, and not by the reader while the writer holds a
touch. -/
def EndsDrained (s : State) : Label → Prop
  | .readerEnded => s.inputChannel = [] ∧ s.server.held = []
  | .writeFailed => s.inputChannel = []
  | _ => True

/-- The books: every classified gesture is somewhere, if only among the lost. -/
structure Balanced (s : State) : Prop where
  balance : ∀ t, s.sent.count t + s.acknowledged.count t + s.displaced.count t +
    s.inputChannel.count t + s.server.held.count t + s.lost.count t = s.classified.zipIdx.count t
  frames : s.frames.map some = s.sent.map fun t => encodeInputFrame t.1
  writing : ∀ t line, s.server = .serving (some (t, line)) → encodeInputFrame t.1 = some line
  connected : s.hostConnected = true ↔ s.server ≠ .listening
  fits : s.inputChannel.length ≤ inputQueueLen

variable {s u : State} {a : Label} {t : Touch} {g : Gesture}

theorem count_classified (h : t ∈ s.classified.zipIdx) : s.classified.zipIdx.count t = 1 := by
  apply List.count_eq_one_of_mem _ h
  apply List.Nodup.of_map Prod.snd
  rw [List.zipIdx_map_snd]
  exact List.nodup_range' 

theorem balanced_initial : Balanced {} := by
  constructor <;> simp [Server.held]

/-- The touches that nothing will become of: lost, or left behind without a connection. -/
def State.stray (s : State) : List Touch :=
  s.lost ++ if s.hostConnected then [] else s.inputChannel ++ s.server.held

theorem balance_stray (h : Balanced s) (t : Touch) : s.sent.count t + s.acknowledged.count t +
    s.displaced.count t + s.inFlight.count t + s.stray.count t = s.classified.zipIdx.count t := by
  have hbalance := h.balance t
  cases hconnected : s.hostConnected <;>
    simp only [State.inFlight, State.stray, hconnected, Bool.false_eq_true, if_true, if_false,
      List.count_append, List.count_nil] <;>
    omega

theorem settled_iff (h : Balanced s) : Settled s ↔ s.stray = [] := by
  constructor
  · intro hsettled
    apply List.eq_nil_iff_forall_not_mem.mpr
    intro t ht
    have hpos : 0 < s.stray.count t := List.count_pos_iff.mpr ht
    have hbalance := balance_stray h t
    have hmem : t ∈ s.classified.zipIdx := List.count_pos_iff.mp (by omega)
    have honce := hsettled.once t hmem
    have hone := count_classified hmem
    omega
  · intro hstray
    refine ⟨h.frames, ?_⟩
    intro t ht
    have hbalance := balance_stray h t
    have hone := count_classified ht
    simp only [hstray, List.count_nil] at hbalance
    omega

theorem classified_append (s : State) (g : Gesture) :
    (s.classified ++ [g]).zipIdx = s.classified.zipIdx ++ [(g, s.classified.length)] := by
  simp [List.zipIdx_append]

theorem enqueueInput_count (hlen : s.inputChannel.length ≤ inputQueueLen) (t x : Touch) :
    (enqueueInput s.inputChannel t).1.count x + (enqueueInput s.inputChannel t).2.count x =
        s.inputChannel.count x + [t].count x ∧
      (enqueueInput s.inputChannel t).1.length ≤ inputQueueLen := by
  by_cases hroom : s.inputChannel.length < inputQueueLen
  · rw [enqueueInput_room hroom]
    simp only [List.count_append, List.length_append, List.length_singleton, List.count_nil]
    omega
  · cases hchannel : s.inputChannel with
    | nil => simp [hchannel, inputQueueLen] at hroom
    | cons oldest rest =>
      rw [hchannel] at hroom hlen
      rw [enqueueInput_full hroom hlen]
      simp only [List.count_append, List.length_append, List.length_cons, List.count_cons,
        List.length_nil, List.count_nil] at hlen ⊢
      omega

theorem onGesture_balanced (h : Balanced s) (g : Gesture) : Balanced (s.onGesture g) := by
  obtain ⟨hbalance, hframes, hwriting, hconnected, hfits⟩ := h
  cases hhost : s.hostConnected with
  | true =>
    have hcount := enqueueInput_count hfits (g, s.classified.length)
    simp only [State.onGesture, hhost, if_true, State.enqueue]
    refine ⟨?_, hframes, hwriting, hhost ▸ hconnected, (hcount (g, 0)).2⟩
    intro x
    have hold := hbalance x
    have hnew := (hcount x).1
    simp only [classified_append, List.count_append]
    omega
  | false =>
    simp only [State.onGesture, hhost, Bool.false_eq_true, if_false, State.acknowledge,
      State.queueBehaviorUpdate]
    refine ⟨?_, hframes, hwriting, hhost ▸ hconnected, hfits⟩
    intro x
    have hold := hbalance x
    simp only [classified_append, List.count_append]
    omega

theorem sample_balanced (h : Balanced s) (pressed : Bool) (nowMs : ℕ) :
    Balanced (s.sample pressed nowMs) := by
  rcases hupdate : s.classifier.update pressed nowMs with ⟨classifier, gesture⟩
  have hclassifier : Balanced { s with classifier := classifier } :=
    ⟨h.balance, h.frames, h.writing, h.connected, h.fits⟩
  simp only [State.sample, hupdate]
  cases gesture with
  | none => exact hclassifier
  | some g => exact onGesture_balanced hclassifier g

theorem step_balanced (hs : Step s a u) (h : Balanced s) : Balanced u := by
  obtain ⟨hbalance, hframes, hwriting, hconnected, hfits⟩ := h
  cases hs with
  | sample pressed nowMs =>
    exact sample_balanced ⟨hbalance, hframes, hwriting, hconnected, hfits⟩ _ _
  | accept hserver =>
    refine ⟨?_, hframes, by simp [State.accept], by simp [State.accept], Nat.zero_le _⟩
    intro x
    have hold := hbalance x
    simp only [State.accept, hserver, Server.held, List.count_append, List.count_nil] at hold ⊢
    omega
  | acceptFailed => exact ⟨hbalance, hframes, hwriting, hconnected, hfits⟩
  | downlink => exact ⟨hbalance, hframes, hwriting, hconnected, hfits⟩
  | @receive t rest line hserver hchannel hline =>
    refine ⟨?_, hframes, ?_, ?_, ?_⟩
    · intro x
      have hold := hbalance x
      simp only [State.receive, hserver, hchannel, Server.held, List.count_cons, List.count_nil]
        at hold ⊢
      omega
    · rintro t' line' hwrite
      simp only [State.receive, Server.serving.injEq, Option.some.injEq, Prod.mk.injEq] at hwrite
      obtain ⟨rfl, rfl⟩ := hwrite
      exact hline
    · simpa [State.receive, hserver] using hconnected
    · simp only [State.receive, hchannel, List.length_cons] at hfits ⊢
      omega
  | @passOver t rest hserver hchannel hline =>
    -- Every gesture has a frame.
    rw [(encodeInputFrame_eq t.1).1] at hline
    contradiction
  | @written t line hserver =>
    refine ⟨?_, ?_, by simp [State.written], by simpa [State.written, hserver] using hconnected,
      hfits⟩
    · intro x
      have hold := hbalance x
      simp only [State.written, hserver, Server.held, List.count_append, List.count_nil] at hold ⊢
      omega
    · simp [State.written, hframes, hwriting t line hserver]
  | @writeFailed t line hserver =>
    refine ⟨?_, hframes, by simp [State.disconnect], by simp [State.disconnect], hfits⟩
    intro x
    have hold := hbalance x
    simp only [State.disconnect, State.acknowledge, State.queueBehaviorUpdate, hserver,
      Server.held, List.count_append, List.count_nil] at hold ⊢
    omega
  | readerEnded hserver =>
    refine ⟨?_, hframes, by simp [State.cancelWriter, State.disconnect],
      by simp [State.cancelWriter, State.disconnect], hfits⟩
    intro x
    have hold := hbalance x
    simp only [State.cancelWriter, State.disconnect, Server.held, List.count_append,
      List.count_nil] at hold ⊢
    omega
  | render => exact ⟨hbalance, hframes, hwriting, hconnected, hfits⟩

theorem onGesture_stray (s : State) (g : Gesture) : (s.onGesture g).stray = s.stray := by
  cases hhost : s.hostConnected <;>
    simp [State.onGesture, State.stray, hhost, State.enqueue, State.acknowledge,
      State.queueBehaviorUpdate]

theorem sample_stray (s : State) (pressed : Bool) (nowMs : ℕ) :
    (s.sample pressed nowMs).stray = s.stray := by
  rcases hupdate : s.classifier.update pressed nowMs with ⟨classifier, gesture⟩
  simp only [State.sample, hupdate]
  cases gesture with
  | none => rfl
  | some g => exact onGesture_stray _ g

/-- A step leaves nothing behind exactly when it ends no connection with touches on it. -/
theorem step_stray (hs : Step s a u) (h : Balanced s) (hstray : s.stray = []) :
    u.stray = [] ↔ EndsDrained s a := by
  have hconnected := h.connected
  cases hs with
  | sample pressed nowMs => simp [sample_stray, hstray, EndsDrained]
  | accept hserver =>
    -- Without a connection the channel was empty, so the clear finds nothing.
    have hhost : s.hostConnected = false := by simpa [hserver] using hconnected
    simp_all [State.stray, State.accept, EndsDrained]
  | acceptFailed => simp [hstray, EndsDrained]
  | downlink => simp_all [State.stray, State.queueBehaviorUpdate, EndsDrained]
  | receive hserver => simp_all [State.stray, State.receive, EndsDrained]
  | @passOver t rest hserver hchannel hline =>
    rw [(encodeInputFrame_eq t.1).1] at hline
    contradiction
  | written hserver => simp_all [State.stray, State.written, EndsDrained]
  | writeFailed hserver =>
    simp_all [State.stray, State.disconnect, State.acknowledge, State.queueBehaviorUpdate,
      Server.held, EndsDrained]
  | readerEnded hserver =>
    simp_all [State.stray, State.cancelWriter, State.disconnect, Server.held, EndsDrained]
    exact and_comm
  | render => simp_all [State.stray, EndsDrained]

theorem step_settled (hs : Step s a u) (h : Balanced s) (hsettled : Settled s) :
    Settled u ↔ EndsDrained s a := by
  rw [settled_iff (step_balanced hs h)]
  exact step_stray hs h ((settled_iff h).mp hsettled)

/-- Every classified gesture ends sent, acknowledged or displaced exactly as long as every
connection ends drained. -/
theorem touches_settled_iff {run : List (Label × State)} (h : Trace Step {} run s) :
    Throughout Settled {} run ↔ Along EndsDrained {} run :=
  h.throughout_iff (fun hb hs => step_balanced hs hb)
    (fun hb hsettled hs => step_settled hs hb hsettled)
    balanced_initial ((settled_iff balanced_initial).mpr rfl)

/-- The host reads the tap before it goes. -/
theorem touches_settled_iff_tap : ∃ (run : List (Label × State)) (s : State), Trace Step {} run s ∧
    s.sent = [(.tap, 0)] ∧ s.hostConnected = false ∧ Throughout Settled {} run := by
  have hrun : ∃ (run : List (Label × State)) (s : State), Trace Step {} run s ∧
      s.sent = [(.tap, 0)] ∧ s.hostConnected = false ∧ Along EndsDrained {} run :=
    ⟨_, _, .cons (.accept rfl) (.cons (.sample false 0) (.cons (.sample true 10)
      (.cons (.sample true 50) (.cons (.sample false 60) (.cons (.sample false 100)
        (.cons (.sample false 500) (.cons (.receive rfl rfl (encodeInputFrame_eq .tap).1)
          (.cons (.written rfl) (.single (.readerEnded rfl)))))))))), rfl, rfl,
      trivial, trivial, trivial, trivial, trivial, trivial, trivial, trivial, trivial, ⟨rfl, rfl⟩,
      trivial⟩
  obtain ⟨run, s, htrace, hsent, hhost, halong⟩ := hrun
  exact ⟨run, s, htrace, hsent, hhost, (touches_settled_iff htrace).mpr halong⟩

/-- The host goes before the writer has taken the tap, and the next accept clears it. -/
theorem lost_touch : ∃ (run : List (Label × State)) (s : State), Trace Step {} run s ∧
    s.classified = [.tap] ∧ s.sent = [] ∧ s.acknowledged = [] ∧ s.displaced = [] ∧
      s.inFlight = [] ∧ ¬ Settled s := by
  refine ⟨_, _, .cons (.accept rfl) (.cons (.sample false 0) (.cons (.sample true 10)
    (.cons (.sample true 50) (.cons (.sample false 60) (.cons (.sample false 100)
      (.cons (.sample false 500) (.cons (.readerEnded rfl) (.single (.accept rfl))))))))),
    by decide, by decide, by decide, by decide, by decide, ?_⟩
  intro hsettled
  have honce := hsettled.once (.tap, 0) (by decide)
  revert honce
  decide

end Hologotchi.Device
