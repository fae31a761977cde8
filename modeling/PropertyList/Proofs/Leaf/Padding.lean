import Mathlib.Data.List.TakeWhile
import Mathlib.Data.Nat.Notation
import PropertyList.Proofs.Leaf.Alphabet

/-! What a strict reader of bytes accepts: characters of the alphabet with the padding that completes
their last group. Where the last group is complete, it accepts any padding behind it as well. -/
namespace PropertyList

namespace Base64

/-- Whether equals signs make whole groups of some characters, in the one way that there is. -/
def Completes (codes pads : ℕ) : Prop := (codes + pads) % 4 = 0 ∧ pads ≤ 2

/-- Whether a state may go on to the end of a text by padding alone. -/
def State.Awaits (state : State) (pads : ℕ) : Prop :=
  state.position = 0 ∨ 2 ≤ state.position ∧ state.position + state.pads + pads = 4

/-- Whether a group is not complete yet of which half was seen at least. -/
def State.IsOpen (state : State) : Prop := 2 ≤ state.position → state.position + state.pads < 4

theorem exists_bits_of_isCode {c : ℕ} (h : isCode c = true) : ∃ n, bits? c = some n :=
  Option.isSome_iff_exists.mp ((isSome_bits? c).trans h)

theorem ne_pad_of_isCode {c : ℕ} (h : isCode c = true) : c ≠ pad := by
  have hcode := isCode_iff.mp h
  change c ≠ 61
  omega

theorem State.take_open {state : State} (h : state.position < 4) (n : ℕ) :
    (state.take n).position = (state.position + 1) % 4 ∧ (state.take n).pads = 0 ∧
      (state.take n).padded = state.padded := by
  obtain ⟨position, held, pads, padded, read⟩ := state
  obtain rfl | rfl | rfl | rfl : position = 0 ∨ position = 1 ∨ position = 2 ∨ position = 3 := by
    dsimp only at h
    omega
  all_goals simp [State.take]

/-- In front of the padding a strict reader takes in one character after the other. -/
theorem exists_readOn_codes {state : State} (hposition : state.position < 4)
    (hpads : state.pads = 0) (hpadded : state.padded = false) {code : Text}
    (hcode : ∀ c ∈ code, isCode c = true) :
    ∃ next : State, next.position = (state.position + code.length) % 4 ∧ next.pads = 0 ∧
      ∀ rest, readOn true state (code ++ rest) = readOn true next rest := by
  induction code generalizing state with
  | nil => exact ⟨state, by simp [Nat.mod_eq_of_lt hposition], hpads, fun _ => rfl⟩
  | cons c code ih =>
    have hc := hcode c List.mem_cons_self
    obtain ⟨n, hn⟩ := exists_bits_of_isCode hc
    obtain ⟨hnext, hnone, hsame⟩ := State.take_open hposition n
    obtain ⟨next, hend, hclosed, hread⟩ :=
      ih (by omega) hnone (hsame.trans hpadded) fun d hd => hcode d (List.mem_cons_of_mem c hd)
    refine ⟨next, ?_, hclosed, ?_⟩
    · rw [hend, hnext, List.length_cons]
      omega
    · intro rest
      rw [List.cons_append, readOn, if_neg (ne_pad_of_isCode hc)]
      simp [hn, hpadded, hread]

/-- The state behind an equals sign that does not complete a group. -/
def State.afterPad (state : State) : State :=
  { state with pads := if 2 ≤ state.position then state.pads + 1 else state.pads, padded := true }

/-- Whether the next equals sign completes the group. -/
def State.Closes (state : State) : Prop :=
  2 ≤ state.position ∧ 4 ≤ state.position + (state.pads + 1)

theorem State.IsOpen.afterPad {state : State} (h : ¬ state.Closes) : state.afterPad.IsOpen := by
  intro hposition
  change 2 ≤ state.position at hposition
  rw [State.Closes] at h
  simp only [State.afterPad, if_pos hposition]
  omega

theorem State.awaits_afterPad_iff {state : State} {pads : ℕ} :
    state.afterPad.Awaits pads ↔ state.Awaits (pads + 1) := by
  simp only [State.Awaits, State.afterPad]
  split <;> omega

theorem readOn_pad {state : State} (h : ¬ state.Closes) (rest : Text) :
    readOn true state (pad :: rest) = readOn true state.afterPad rest := by
  rw [State.Closes] at h
  simp [readOn, h, State.afterPad]

theorem exists_readOn_closing_iff {state : State} (h : state.Closes) (rest : Text) :
    (∃ bytes, readOn true state (pad :: rest) = .ok bytes) ↔ rest = [] := by
  rw [State.Closes] at h
  cases rest <;> simp [readOn, h]

/-- Behind padding a strict reader takes nothing but padding. -/
theorem eq_pad_of_readOn {state : State} (h : state.padded = true) {c : CodePoint} {rest : Text}
    {bytes : Bytes} (hread : readOn true state (c :: rest) = .ok bytes) : c = pad := by
  apply Decidable.byContradiction
  intro hc
  rw [readOn, if_neg hc] at hread
  cases hbits : bits? c <;> simp [hbits, h] at hread

theorem exists_finish_iff {state : State} :
    (∃ bytes, state.finish = .ok bytes) ↔ state.position = 0 := by
  unfold State.finish
  split <;> simp_all

/-- Once it has seen padding, a strict reader accepts nothing else, and only what is missing unless
the last group is complete. -/
theorem exists_readOn_padded_iff {state : State} (hopen : state.IsOpen)
    (hpadded : state.padded = true) (s : Text) :
    (∃ bytes, readOn true state s = .ok bytes) ↔
      s = List.replicate s.length pad ∧ state.Awaits s.length := by
  induction s generalizing state with
  | nil =>
    rw [State.IsOpen] at hopen
    rw [readOn, exists_finish_iff]
    simp only [State.Awaits, List.length_nil, List.replicate_zero, true_and]
    omega
  | cons c rest ih =>
    by_cases hc : c = pad
    · subst hc
      simp only [List.length_cons, List.replicate_succ, List.cons.injEq, true_and]
      by_cases hcloses : state.Closes
      · have hmore := hopen hcloses.1
        have hlast := hcloses.2
        rw [exists_readOn_closing_iff hcloses, State.Awaits]
        constructor
        · rintro rfl
          exact ⟨rfl, .inr ⟨hcloses.1, by simp; omega⟩⟩
        · rintro ⟨-, hawaits⟩
          apply List.eq_nil_of_length_eq_zero
          have := hcloses.1
          omega
      · rw [readOn_pad hcloses, ih (State.IsOpen.afterPad hcloses) rfl, State.awaits_afterPad_iff]
    · constructor
      · rintro ⟨bytes, hread⟩
        exact absurd (eq_pad_of_readOn hpadded hread) hc
      · rintro ⟨hs, -⟩
        exact absurd (List.cons.inj hs).1 hc

/-- Whether padding was seen does not matter where no character of the alphabet follows. -/
theorem readOn_of_head {state : State} {rest : Text} (h : rest.head?.any isCode = false) :
    readOn true state rest = readOn true { state with padded := true } rest := by
  cases rest with
  | nil => rfl
  | cons c rest =>
    by_cases hc : c = pad
    · simp [readOn, hc]
    · have hbits : bits? c = none := by
        rw [← Option.not_isSome_iff_eq_none, isSome_bits?]
        simpa using h
      simp [readOn, hc, hbits]

/-- A strict reader goes through characters of the alphabet and comes to its end by padding. -/
theorem exists_readOn_iff {code : Text} (hcode : ∀ c ∈ code, isCode c = true) {rest : Text}
    (hrest : rest.head?.any isCode = false) :
    (∃ bytes, readOn true .start (code ++ rest) = .ok bytes) ↔
      rest = List.replicate rest.length pad ∧
        (code.length % 4 = 0 ∨ 2 ≤ code.length % 4 ∧ code.length % 4 + rest.length = 4) := by
  obtain ⟨next, hposition, hpads, hread⟩ :=
    exists_readOn_codes (show State.start.position < 4 by decide) rfl rfl hcode
  have hopen : State.IsOpen { next with padded := true } := by
    intro _
    change next.position + next.pads < 4
    omega
  change next.position = (0 + code.length) % 4 at hposition
  rw [hread, readOn_of_head hrest, exists_readOn_padded_iff hopen rfl, State.Awaits, hposition,
    hpads, Nat.zero_add, Nat.add_zero]

theorem readOn_of_decode {strict : Bool} {s : Text} {bytes : Bytes}
    (h : decode strict s = .ok bytes) : readOn strict .start s = .ok bytes := by
  unfold decode at h
  split at h
  · cases h
  · split at h
    · cases h
    · exact h

/-- Padding does not stand in front of a text, and behind its characters just as much of it as is
missing, unless nothing is. -/
theorem exists_decode_append_iff {code : Text} (hcode : ∀ c ∈ code, isCode c = true) (pads : ℕ) :
    (∃ bytes, decode true (code ++ List.replicate pads pad) = .ok bytes) ↔
      Completes code.length pads ∨ code ≠ [] ∧ code.length % 4 = 0 := by
  have hascii : (code ++ List.replicate pads pad).any (0x7F < ·) = false := by
    have hcodes (c : Nat) (hc : c ∈ code) : c ≤ 0x7F := by
      have := isCode_iff.mp (hcode c hc)
      omega
    have hpad : ¬ 0x7F < pad := by decide
    simpa [hpad] using hcodes
  cases code with
  | nil =>
    cases pads with
    | zero => exact iff_of_true ⟨[], rfl⟩ (.inl ⟨rfl, Nat.zero_le 2⟩)
    | succ pads =>
      have hlead : ([] ++ List.replicate (pads + 1) pad).head? = some pad := rfl
      rw [decode, hascii, hlead]
      simp [Completes]
      omega
  | cons c code =>
    have hlead : ((c :: code ++ List.replicate pads pad).head? == some pad) = false := by
      simpa using ne_pad_of_isCode (hcode c List.mem_cons_self)
    have hhead : (List.replicate pads pad).head?.any isCode = false := by
      cases pads with
      | zero => rfl
      | succ pads => exact (by decide : isCode pad = false)
    rw [decode, hascii, hlead]
    simp only [Bool.false_eq_true, if_false, Bool.and_false]
    rw [exists_readOn_iff hcode hhead]
    simp only [List.length_replicate, true_and, Completes, ne_eq, reduceCtorEq, not_false_eq_true]
    omega

/-- A strict reader accepts a text just if characters of the alphabet are followed by the padding
that completes them, or by any padding if there are some and they are complete. -/
theorem exists_decode_strict_iff {s : Text} :
    (∃ bytes, decode true s = .ok bytes) ↔
      ∃ (code : Text) (pads : ℕ), s = code ++ List.replicate pads pad ∧
        (∀ c ∈ code, isCode c = true) ∧
        (Completes code.length pads ∨ code ≠ [] ∧ code.length % 4 = 0) := by
  constructor
  · rintro ⟨bytes, hread⟩
    have hcode : ∀ c ∈ s.takeWhile isCode, isCode c = true := fun c hc => List.mem_takeWhile_imp hc
    have hrest : (s.dropWhile isCode).head?.any isCode = false := by
      have hhead := List.head?_dropWhile_not isCode s
      cases hfound : (s.dropWhile isCode).head? <;> simp_all
    have hparts := List.takeWhile_append_dropWhile (p := isCode) (l := s)
    have hwhole := readOn_of_decode hread
    rw [← hparts] at hwhole
    have hpads := ((exists_readOn_iff hcode hrest).mp ⟨bytes, hwhole⟩).1
    rw [hpads] at hparts
    rw [← hparts] at hread
    exact ⟨_, _, hparts.symm, hcode, (exists_decode_append_iff hcode _).mp ⟨bytes, hread⟩⟩
  · rintro ⟨code, pads, rfl, hcode, hend⟩
    exact (exists_decode_append_iff hcode pads).mpr hend

end Base64

open Base64

/-- A strict reader of bytes accepts a text just if, without its blanks, it is made of characters of
the alphabet and of the padding that completes their last group, or of any padding if that group is
complete already. All other texts are a fault. -/
theorem decodeData_strict_eq_ok_iff (s : Text) :
    ((∃ bytes, decodeData true s = pure bytes) ↔
      ∃ (code : Text) (pads : ℕ), s.compact = code ++ List.replicate pads pad ∧
        (∀ c ∈ code, isCode c = true) ∧
        (Completes code.length pads ∨ code ≠ [] ∧ code.length % 4 = 0)) ∧
    ((∃ bytes, decodeData true s = pure bytes) ∨
      ∃ fault, decodeData true s = Run.fault fault ∧ fault.tag = text "data" ∧
        fault.content? = some s) := by
  rw [← exists_decode_strict_iff, decodeData]
  cases decode true s.compact with
  | ok bytes => exact ⟨⟨fun _ => ⟨bytes, rfl⟩, fun _ => ⟨bytes, rfl⟩⟩, .inl ⟨bytes, rfl⟩⟩
  | error fault =>
    refine ⟨?_, .inr ⟨.notBase64 fault s, rfl, rfl, rfl⟩⟩
    simp [Run.fault, Run.fail, Run.pure_def]

/-- One sign too many behind a group, and one too few. -/
example : decodeData true (text "AAEC\n=") = pure [0, 1, 2] ∧
    decodeData true (text "AAE") = Run.fault (.notBase64 .missingPadding (text "AAE")) :=
  ⟨rfl, rfl⟩

end PropertyList
