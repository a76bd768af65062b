import Hologotchi.Display.Driver

/-! What the chip makes of a command that the driver sends. -/
namespace Hologotchi.Display

namespace Chip

variable {c : Chip} {command value : UInt8} {args done rest : List UInt8} {signals more : List Signal}

/-- Selected, and waiting for a single byte. -/
structure Listening (c : Chip) : Prop where
  selected : c.csPin = false
  transfer : c.transfer = some ⟨1, []⟩
  idle : c.pendingWriteBytes = 0

/-- Not in the middle of pixel data: either not selected, or waiting for a byte. -/
def Attentive (c : Chip) : Prop :=
  c.pendingWriteBytes = 0 ∧
    (c.csPin = true ∧ c.transfer = none ∨ c.csPin = false ∧ c.transfer = some ⟨1, []⟩)

theorem Listening.attentive (h : Listening c) : Attentive c := ⟨h.idle, .inr ⟨h.selected, h.transfer⟩⟩

/-- A command that starts no pixel data changes the panel, and nothing is left to be read. -/
theorem applyCurrentCommand_eq (h : c.currentCmd ≠ cmdWriteRam) : c.applyCurrentCommand =
    { c with toPanel := c.toPanel.apply c.currentCmd c.args, argsExpected := 0, args := [] } := by
  rw [applyCurrentCommand]
  simp only [if_neg h]

theorem argCountForCmd_le (command : UInt8) : argCountForCmd command ≤ 3 := by
  unfold argCountForCmd
  split_ifs <;> omega

variable [SpiRuntime]

@[simp] theorem run_nil (c : Chip) : c.run [] = c := rfl

@[simp] theorem run_cons (c : Chip) (s : Signal) (signals : List Signal) :
    c.run (s :: signals) = (c.signal s).run signals := rfl

@[simp] theorem run_append (c : Chip) (signals more : List Signal) :
    c.run (signals ++ more) = (c.run signals).run more := List.foldl_append

theorem Attentive.select (h : Attentive c) :
    Listening (c.signal (.cs false)) ∧ (c.signal (.cs false)).toPanel = c.toPanel := by
  obtain ⟨hidle, ⟨hcs, htransfer⟩ | ⟨hcs, htransfer⟩⟩ := h
  · have hedge : ¬ c.csPin = false := by simp [hcs]
    simp only [signal, if_neg hedge, startNextSpiRead, hidle]
    exact ⟨⟨rfl, rfl, rfl⟩, rfl⟩
  · rw [signal, if_pos hcs]
    exact ⟨⟨hcs, htransfer, hidle⟩, rfl⟩

theorem Listening.dc (h : Listening c) (high : Bool) : Listening (c.signal (.dc high)) :=
  ⟨h.selected, h.transfer, h.idle⟩

/-- Raising `cs` ends the read, which has no byte yet. -/
theorem Listening.release (h : Listening c) :
    c.signal (.cs true) = { c with csPin := true, transfer := none } := by
  have hcs : ¬ c.csPin = true := by simp [h.selected]
  simp only [signal, if_neg hcs, spiStop, h.transfer, SpiRuntime.stop_unread]
  rfl

/-- A single byte is handed over at once. -/
theorem Listening.byte (h : Listening c) (value : UInt8) :
    c.signal (.byte value) = { c with transfer := none }.spiDone [value] := by
  have hlast : SpiRuntime.byte ⟨1, []⟩ value = .done [value] := SpiRuntime.byte_last value rfl
  simp [signal, spiByte, h.transfer, hlast]

theorem Listening.command_byte (h : Listening c) (hdc : c.dcPin = false)
    (hcmd : command ≠ cmdWriteRam) :
    c.signal (.byte command) = c.handleCommandByte command := by
  rw [h.byte, spiDone, handleCommandByte]
  by_cases hnone : argCountForCmd command = 0
  · simp [hdc, handleCommandByte, hnone, applyCurrentCommand_eq, hcmd, startNextSpiRead, h.selected,
      h.idle, h.transfer]
  · simp [hdc, handleCommandByte, hnone, startNextSpiRead, h.selected, h.idle, h.transfer]

theorem Listening.arg (h : Listening c) (hdc : c.dcPin = true)
    (hmore : c.args.length + 1 < c.argsExpected) (hmost : c.argsExpected ≤ 3) :
    c.signal (.byte value) = { c with args := c.args ++ [value] } := by
  have hsome : ¬ c.argsExpected = 0 := by omega
  have hroom : ¬ 3 ≤ c.args.length := by omega
  have hearly : ¬ c.args.length + 1 = c.argsExpected := by omega
  simp [h.byte, spiDone, hdc, handleDataByte, hsome, hroom, hearly, startNextSpiRead, h.selected,
    h.idle, h.transfer]

/-- The last argument carries the command out. -/
theorem Listening.last_arg (h : Listening c) (hdc : c.dcPin = true)
    (hcmd : c.currentCmd ≠ cmdWriteRam) (hlast : c.args.length + 1 = c.argsExpected)
    (hmost : c.argsExpected ≤ 3) : c.signal (.byte value) = { c with
      toPanel := c.toPanel.apply c.currentCmd (c.args ++ [value]), argsExpected := 0, args := [] } := by
  have hsome : ¬ c.argsExpected = 0 := by omega
  have hroom : ¬ 3 ≤ c.args.length := by omega
  simp [h.byte, spiDone, hdc, handleDataByte, hsome, hroom, hlast, applyCurrentCommand_eq, hcmd,
    startNextSpiRead, h.selected, h.idle, h.transfer]

/-- Arguments that do not complete the command are kept. -/
theorem Listening.some_args (h : Listening c) (hdc : c.dcPin = true) (rest : List UInt8)
    (hmore : c.args.length + rest.length < c.argsExpected) (hmost : c.argsExpected ≤ 3) :
    c.run (rest.map .byte) = { c with args := c.args ++ rest } := by
  induction rest generalizing c with
  | nil => rw [List.append_nil]; rfl
  | cons value rest ih =>
    rw [List.length_cons] at hmore
    have hstep : c.signal (.byte value) = { c with args := c.args ++ [value] } :=
      h.arg hdc (by omega) hmost
    have hlisten : Listening { c with args := c.args ++ [value] } :=
      ⟨h.selected, h.transfer, h.idle⟩
    have hnext := ih hlisten hdc (by simp; omega) hmost
    rw [List.map_cons, run_cons, hstep, hnext]
    simp

theorem Listening.all_args (h : Listening c) (hdc : c.dcPin = true)
    (hcmd : c.currentCmd ≠ cmdWriteRam) (hne : rest ≠ [])
    (hlen : c.args.length + rest.length = c.argsExpected) (hmost : c.argsExpected ≤ 3) :
    c.run (rest.map .byte) = { c with
      toPanel := c.toPanel.apply c.currentCmd (c.args ++ rest), argsExpected := 0, args := [] } := by
  obtain ⟨first, value, rfl⟩ := (List.eq_nil_or_concat rest).resolve_left hne
  rw [List.concat_eq_append, List.length_append, List.length_singleton] at hlen
  have hfirst := h.some_args hdc first (by omega) hmost
  have hlisten : Listening { c with args := c.args ++ first } := ⟨h.selected, h.transfer, h.idle⟩
  rw [List.concat_eq_append, List.map_append, run_append, hfirst, ← List.append_assoc]
  exact hlisten.last_arg hdc hcmd (by simp; omega) hmost

/-- A command that has arguments waits for them. -/
theorem Listening.await (h : Listening c) (hdc : c.dcPin = false) (hcmd : command ≠ cmdWriteRam)
    (hargs : ¬ argCountForCmd command = 0) : c.signal (.byte command) =
      { c with currentCmd := command, argsExpected := argCountForCmd command, args := [] } := by
  rw [h.command_byte hdc hcmd, handleCommandByte]
  simp only [if_neg hargs]

/-- A command with the arguments that the chip expects is carried out. -/
theorem Listening.carry_out (h : Listening c) (hdc : c.dcPin = false) (hcmd : command ≠ cmdWriteRam)
    (hargs : args.length = argCountForCmd command) :
    Listening ((c.signal (.byte command)).run (argSignals args)) ∧
      ((c.signal (.byte command)).run (argSignals args)).toPanel =
        c.toPanel.apply command args := by
  cases args with
  | nil =>
    have hnone : argCountForCmd command = 0 := hargs.symm
    have happlied : ({ c with currentCmd := command, argsExpected := 0, args := [] } :
        Chip).applyCurrentCommand = { c with
          toPanel := c.toPanel.apply command []
          currentCmd := command
          argsExpected := 0
          args := [] } := applyCurrentCommand_eq hcmd
    rw [h.command_byte hdc hcmd, handleCommandByte]
    simp only [hnone, if_true, happlied]
    exact ⟨⟨h.selected, h.transfer, h.idle⟩, rfl⟩
  | cons value args =>
    let waiting : Chip := { c with
      currentCmd := command
      argsExpected := argCountForCmd command
      args := []
      dcPin := true }
    have hwaiting : Listening waiting := ⟨h.selected, h.transfer, h.idle⟩
    have hall := hwaiting.all_args rfl hcmd (List.cons_ne_nil value args)
      ((Nat.zero_add _).trans hargs) (argCountForCmd_le command)
    rw [h.await hdc hcmd (by simp [← hargs])]
    change Listening (waiting.run _) ∧ (waiting.run _).toPanel = _
    rw [hall]
    exact ⟨⟨h.selected, h.transfer, h.idle⟩, rfl⟩

/-- So is one that the driver sends, wherever the wires stood before. -/
theorem Attentive.cmd (h : Attentive c) (hcmd : command ≠ cmdWriteRam)
    (hargs : args.length = argCountForCmd command) :
    Attentive (c.run (cmd command args)) ∧
      (c.run (cmd command args)).toPanel = c.toPanel.apply command args := by
  obtain ⟨hlisten, hpanel⟩ := h.select
  obtain ⟨hdone, happlied⟩ := (hlisten.dc false).carry_out rfl hcmd hargs
  have hrelease := hdone.release
  rw [Display.cmd, run_append, run_append, run_cons, run_cons, run_cons, run_nil, run_cons, run_nil,
    hrelease]
  exact ⟨⟨hdone.idle, .inl ⟨rfl, rfl⟩⟩, happlied.trans (congrArg (·.apply command args) hpanel)⟩

/-- Before its last argument a command is not carried out. -/
theorem Listening.hold_back (h : Listening c) (hdc : c.dcPin = false) (hcmd : command ≠ cmdWriteRam)
    (hargs : args.length = argCountForCmd command) {n : ℕ} (hn : n < (argSignals args).length) :
    Listening ((c.signal (.byte command)).run ((argSignals args).take n)) ∧
      ((c.signal (.byte command)).run ((argSignals args).take n)).toPanel = c.toPanel := by
  cases args with
  | nil => exact absurd hn (Nat.not_lt_zero n)
  | cons value args =>
    rw [h.await hdc hcmd (by simp [← hargs])]
    cases n with
    | zero => exact ⟨⟨h.selected, h.transfer, h.idle⟩, rfl⟩
    | succ n =>
      let waiting : Chip := { c with
        currentCmd := command
        argsExpected := argCountForCmd command
        args := []
        dcPin := true }
      have hwaiting : Listening waiting := ⟨h.selected, h.transfer, h.idle⟩
      have hshort : 0 + ((value :: args).take n).length < argCountForCmd command := by
        simp only [argSignals, List.isEmpty_cons, Bool.false_eq_true, if_false, List.length_cons,
          List.length_map] at hn hargs
        rw [← hargs, List.length_take, List.length_cons]
        omega
      have hsome := hwaiting.some_args rfl _ hshort (argCountForCmd_le command)
      change Listening (waiting.run (((value :: args).map Signal.byte).take n)) ∧
        (waiting.run (((value :: args).map Signal.byte).take n)).toPanel = _
      rw [← List.map_take, hsome]
      exact ⟨⟨h.selected, h.transfer, h.idle⟩, rfl⟩

/-- A command that is cut short has been carried out, or not begun to. -/
theorem Attentive.cut_short (h : Attentive c) (hcmd : command ≠ cmdWriteRam)
    (hargs : args.length = argCountForCmd command) (n : ℕ) :
    Attentive (c.run ((Display.cmd command args).take n)) ∧
      ((c.run ((Display.cmd command args).take n)).toPanel = c.toPanel ∨
        (c.run ((Display.cmd command args).take n)).toPanel = c.toPanel.apply command args) := by
  obtain ⟨hselected, hpanel⟩ := h.select
  have hlisten := hselected.dc false
  match n with
  | 0 => exact ⟨h, .inl rfl⟩
  | 1 => exact ⟨hselected.attentive, .inl hpanel⟩
  | 2 => exact ⟨hlisten.attentive, .inl hpanel⟩
  | n + 3 =>
    have hwhole : Display.cmd command args =
        .cs false :: .dc false :: .byte command :: (argSignals args ++ [.cs true]) := by
      simp [Display.cmd]
    obtain hn | hn | hn := Nat.lt_trichotomy n (argSignals args).length
    · obtain ⟨hcut, hsame⟩ := hlisten.hold_back rfl hcmd hargs hn
      have htake : (argSignals args ++ [Signal.cs true]).take n = (argSignals args).take n :=
        List.take_append_of_le_length (Nat.le_of_lt hn)
      rw [hwhole, List.take_succ_cons, List.take_succ_cons, List.take_succ_cons, htake]
      exact ⟨hcut.attentive, .inl (hsame.trans hpanel)⟩
    · obtain ⟨hdone, happlied⟩ := hlisten.carry_out rfl hcmd hargs
      have htake : (argSignals args ++ [Signal.cs true]).take n = argSignals args := by
        rw [hn, List.take_left]
      rw [hwhole, List.take_succ_cons, List.take_succ_cons, List.take_succ_cons, htake]
      exact ⟨hdone.attentive, .inr (happlied.trans (congrArg (·.apply command args) hpanel))⟩
    · obtain ⟨hready, happlied⟩ := h.cmd hcmd hargs
      have htake : (Display.cmd command args).take (n + 3) = Display.cmd command args := by
        apply List.take_of_length_le
        simp only [hwhole, List.length_cons, List.length_append, List.length_nil]
        omega
      rw [htake]
      exact ⟨hready, .inr happlied⟩

/-- Commands one after the other. -/
theorem Attentive.cmds {commands : List (UInt8 × List UInt8)} (h : Attentive c)
    (hcommands : ∀ k ∈ commands, k.1 ≠ cmdWriteRam ∧ k.2.length = argCountForCmd k.1) :
    Attentive (c.run (commands.flatMap fun k => Display.cmd k.1 k.2)) ∧
      (c.run (commands.flatMap fun k => Display.cmd k.1 k.2)).toPanel =
        commands.foldl (fun p k => p.apply k.1 k.2) c.toPanel := by
  induction commands generalizing c with
  | nil => exact ⟨h, rfl⟩
  | cons k commands ih =>
    obtain ⟨⟨hcmd, hargs⟩, hrest⟩ := List.forall_mem_cons.mp hcommands
    obtain ⟨hready, hpanel⟩ := h.cmd hcmd hargs
    rw [List.flatMap_cons, run_append, List.foldl_cons, ← hpanel]
    exact ih hready hrest

end Chip

end Hologotchi.Display
