import BirRouter.ReadSearch

/-!
# The buffers of the command line server

What a request does to the receive buffer of its client and to the command buffer of the parser, in
the order of the source: the reads of `read_search`, the NUL of `cli_client_handle_request`, and the
copies and the shift of `cli_parser_handle_client`.

* `requestAccesses` — all of them, each with the sizes at that time;
* `cliBuffers_inside` — in every state that the requests of a client lead to, all accesses of the
  next request are inside.
-/

set_option autoImplicit false

namespace BirRouter

open ByteLayout CString Trace

/-! ## Accesses -/

inductive BufferAccess
  /-- Up to `amount` bytes are written into the receive buffer from `offset` on. -/
  | receive (capacity offset amount : Nat)
  /-- `cmd_blen` of the bytes in use and two NULs are copied to `cmd_buf`. -/
  | command (used cmd_blen : Nat)
  /-- `num` of the bytes in use are moved from `needle_offset` to the front. -/
  | shift (capacity used needle_offset : Nat) (num : Int)
  deriving DecidableEq, Repr

def BufferAccess.Inside : BufferAccess → Prop
  | .receive capacity offset amount => offset + amount ≤ capacity ∧ capacity ≤ cliMaxBuf
  | .command used cmd_blen => cmd_blen ≤ used ∧ cmd_blen + 2 ≤ cliMaxBuf + 2
  | .shift capacity used needle_offset num => 0 ≤ num ∧ needle_offset + num ≤ used ∧
    num ≤ capacity

/-- The read of a round. -/
def roundAccesses (r : SearchRound) : List BufferAccess :=
  if r.first_loop then []
  else
    let grown := (searchStateGrowIfFull r.s).1
    let s := (searchStateGrowIfFull r.s).2
    if grown = 2 then [] else [.receive s.capacity s.used s.amount]

/-- The reads of `read_search`, as it is called. -/
def readAccesses (s : SearchState) (input : List ReadResult) : List BufferAccess :=
  (Loop.visits (readRound [newline]) (inputSize input + 2) ⟨true, 1, s, input⟩).flatMap
    roundAccesses

/-- The lengths of the commands that the loop over the newlines copies. -/
def parseCopies (focus : CliFocus) (sbuf : List Byte) : List Nat → List (List Byte) → List Nat
  | [], _ => []
  | pch :: pchs, executed =>
    let cmd_blen := pch + 1
    let executed := executed ++ [firstLine (sbuf.take cmd_blen)]
    cmd_blen :: if focus.ended executed then [] else parseCopies focus sbuf pchs executed

/-- The copies and the shift of `cli_parser_handle_client`, which does not shift if the session
ends. -/
def parserAccesses (focus : CliFocus) (s : SearchState) : List BufferAccess :=
  let pchs := offsets 0 newline s.chbuf 0
  if pchs = [] then []
  else
    (parseCopies focus s.chbuf pchs []).map (.command s.used) ++
      if (parseCommands focus s.chbuf pchs []).1 then
        [.shift s.capacity s.used s.needle_offset ((s.used : Int) - s.needle_offset - 1)]
      else []

/-- The NUL behind the bytes in use, and what the parser does if there is a newline. -/
def resultAccesses (focus : CliFocus) (ret : Int) (s : SearchState) : List BufferAccess :=
  let ret_grow := (searchStateGrowIfFull s).1
  let s := (searchStateGrowIfFull s).2
  if ret_grow = 2 ∨ ret_grow = -1 then []
  else .receive s.capacity s.used 1 :: if ret = 0 then parserAccesses focus s else []

/-- All accesses of `cli_client_handle_request`. -/
def requestAccesses (focus : CliFocus) (s : SearchState) (input : List ReadResult) :
    List BufferAccess :=
  readAccesses s input ++
    match readSearch s input with
    | none => []
    | some (ret, s, _) => resultAccesses focus ret s

/-! ## Reads -/

variable {s : SearchState}

/-- What the rounds of a call with a limit of one read keep. -/
structure SearchRound.Keeps (s : SearchState) (r : SearchRound) : Prop where
  max_reads : r.max_reads = 1
  chbuf : r.s.chbuf = s.chbuf
  capacity : r.s.capacity = s.capacity

/-- Another round comes after the first search, and after an interrupted read. -/
theorem readRound_keeps (hroom : s.used < s.capacity) {r t : SearchRound} (h : r.Keeps s)
    (hnext : readRound [newline] r = some (.inl t)) : t.Keeps s := by
  obtain ⟨first_loop, max_reads, u, input⟩ := r
  obtain ⟨rfl, hbuf, hcap⟩ := h
  cases first_loop with
  | true =>
    rw [readRound, if_pos rfl, checkNeedle_newline_first, SearchState.search] at hnext
    generalize searchNeedle _ _ = found at hnext
    obtain ⟨_ | o, p⟩ := found
    · cases hnext
      exact ⟨rfl, hbuf, hcap⟩
    · cases hnext
  | false =>
    have hu : u.used < u.capacity := by
      rw [SearchState.used] at hroom ⊢
      rw [hbuf, hcap]
      exact hroom
    simp only [readRound, Bool.false_eq_true, if_false, grow_of_lt hu] at hnext
    cases input with
    | nil => cases hnext
    | cons x input =>
      cases x with
      | interrupted =>
        cases hnext
        exact ⟨rfl, hbuf, hcap⟩
      | error => cases hnext
      | eof => cases hnext
      | data bytes =>
        by_cases hread : (bytes.take u.amount).length = 0
        · simp [hread] at hnext
        · simp only [hread, if_false, checkNeedle_newline_read hread] at hnext
          generalize SearchState.search _ = found at hnext
          obtain ⟨_ | _, v⟩ := found <;> cases hnext

theorem readAccesses_inside (h : s.Ready) (hmax : s.max_capacity = cliMaxBuf)
    (input : List ReadResult) : ∀ a ∈ readAccesses s input, a.Inside := by
  intro a ha
  obtain ⟨r, hr, ha⟩ := List.mem_flatMap.1 ha
  have hkeeps : r.Keeps s :=
    Loop.visits_spec (I := SearchRound.Keeps s) (fun hr hnext => readRound_keeps h.room hr hnext)
      ⟨rfl, rfl, rfl⟩ r hr
  have hu : r.s.used < r.s.capacity := by
    have hroom := h.room
    rw [SearchState.used] at hroom ⊢
    rw [hkeeps.chbuf, hkeeps.capacity]
    exact hroom
  have hcap : r.s.capacity ≤ cliMaxBuf := by
    rw [hkeeps.capacity, ← hmax]
    exact h.bounded
  rw [roundAccesses, grow_of_lt hu] at ha
  split at ha
  · exact absurd ha List.not_mem_nil
  · simp only [show ¬ (0 : Int) = 2 by decide, if_false, List.mem_singleton] at ha
    subst ha
    refine ⟨?_, hcap⟩
    rw [SearchState.amount]
    omega

/-! ## Commands -/

theorem mem_of_mem_parseCopies {focus : CliFocus} {sbuf : List Byte} {pchs : List Nat}
    {executed : List (List Byte)} {cmd_blen : Nat}
    (h : cmd_blen ∈ parseCopies focus sbuf pchs executed) :
    ∃ pch ∈ pchs, cmd_blen = pch + 1 := by
  induction pchs generalizing executed with
  | nil => exact absurd h List.not_mem_nil
  | cons pch pchs ih =>
    rw [parseCopies] at h
    rcases List.mem_cons.1 h with rfl | h
    · exact ⟨pch, List.mem_cons_self, rfl⟩
    · split at h
      · exact absurd h List.not_mem_nil
      · obtain ⟨p, hp, heq⟩ := ih h
        exact ⟨p, List.mem_cons_of_mem _ hp, heq⟩

theorem parserAccesses_inside (focus : CliFocus) (hu : s.used < s.capacity)
    (hmax : s.capacity ≤ cliMaxBuf) (hneedle : s.needle_offset < s.used) :
    ∀ a ∈ parserAccesses focus s, a.Inside := by
  intro a ha
  rw [parserAccesses] at ha
  split at ha
  · exact absurd ha List.not_mem_nil
  rcases List.mem_append.1 ha with ha | ha
  · obtain ⟨cmd_blen, hmem, rfl⟩ := List.mem_map.1 ha
    obtain ⟨pch, hpch, rfl⟩ := mem_of_mem_parseCopies hmem
    have hlt : pch < s.used := by simpa [SearchState.used] using lt_of_mem_offsets hpch
    exact ⟨hlt, by omega⟩
  · split at ha
    · simp only [List.mem_singleton] at ha
      subst ha
      refine ⟨?_, ?_, ?_⟩ <;> omega
    · exact absurd ha List.not_mem_nil

/-! ## Requests -/

theorem resultAccesses_inside (focus : CliFocus) {ret : Int} (hu : s.used ≤ s.capacity)
    (h0 : 0 < s.capacity) (hb : s.capacity ≤ s.max_capacity) (hmax : s.max_capacity = cliMaxBuf)
    (hfound : ret = 0 → s.needle_offset < s.used) :
    ∀ a ∈ resultAccesses focus ret s, a.Inside := by
  rcases grow_cases hu h0 hb with ⟨-, hg⟩ | ⟨-, code, c, h2, h1, hc, hcm, hg⟩
  · simp [resultAccesses, hg]
  have hcap : c ≤ cliMaxBuf := hmax ▸ hcm
  simp only [resultAccesses, hg, h1, h2, or_self, if_false, List.forall_mem_cons]
  refine ⟨⟨hc, hcap⟩, fun a ha => ?_⟩
  split at ha
  · rename_i hret
    exact parserAccesses_inside (s := { s with capacity := c }) focus hc hcap (hfound hret) a ha
  · exact absurd ha List.not_mem_nil

theorem requestAccesses_inside (focus : CliFocus) (h : s.Ready)
    (hmax : s.max_capacity = cliMaxBuf) (input : List ReadResult) :
    ∀ a ∈ requestAccesses focus s input, a.Inside := by
  intro a ha
  have hfilled := length_filled_le h input
  have h0 : 0 < s.capacity := Nat.zero_lt_of_lt h.room
  rcases List.mem_append.1 ha with ha | ha
  · exact readAccesses_inside h hmax input a ha
  rcases readSearch_cases h input with
    ⟨hn, rest, hread⟩ | ⟨-, hread | ⟨code, rest, hcode, hread⟩⟩
  · rw [hread] at ha
    exact resultAccesses_inside (s := SearchState.found { s with chbuf := s.filled input }) focus
      hfilled h0 h.bounded hmax (fun _ => List.idxOf_lt_length_iff.2 hn) a ha
  · rw [hread] at ha
    exact absurd ha List.not_mem_nil
  · rw [hread] at ha
    have hne : code ≠ 0 := by
      rcases hcode with rfl | rfl | rfl <;> decide
    exact resultAccesses_inside (s := SearchState.exhausted { s with chbuf := s.filled input }) focus
      hfilled h0 h.bounded hmax (fun h0 => absurd h0 hne) a ha

/-! ## Sessions -/

theorem cliParserHandleClient_max_capacity {focus : CliFocus} {input rest : List ReadResult}
    {alive : Bool} {t : SearchState} {executed : List (List Byte)}
    (h : cliParserHandleClient focus s input = .returned alive t rest executed) :
    t.max_capacity = s.max_capacity := by
  rcases cliParserHandleClient_cases focus s input with ⟨-, hp⟩ | ⟨-, _, hp | hp⟩ <;>
    cases hp.symm.trans h <;> rfl

theorem request_max_capacity {focus : CliFocus} {input rest : List ReadResult} {alive : Bool}
    {t : SearchState} {executed : List (List Byte)} (h : s.Ready)
    (hr : cliClientHandleRequest focus s input = .returned alive t rest executed) :
    t.max_capacity = s.max_capacity := by
  by_cases hn : newline ∈ s.filled input
  · obtain ⟨rest, ⟨-, hq⟩ | ⟨-, c, -, -, hq⟩⟩ := request_newline focus h hn
    · cases hq.symm.trans hr
      rfl
    · have hsame := cliParserHandleClient_max_capacity (hq.symm.trans hr)
      exact hsame
  · rcases request_no_newline focus h hn with hq | ⟨c, rest, -, -, hq | ⟨-, hq⟩⟩ <;>
      cases hq.symm.trans hr <;> rfl

theorem clientStep_max_capacity {t : SearchState} {call : CliFocus × List ReadResult}
    (h : s.Ready) (hs : ClientStep s call t) : t.max_capacity = s.max_capacity := by
  cases hs with
  | first hr =>
    have hsame := request_max_capacity h hr
    exact hsame
  | next hr => exact request_max_capacity h hr

/-- **No overrun.**  Whatever a client sends and however it comes in, in every state that its
requests lead to the buffer is within its capacity and the capacity within its limit, and the next
request reads, terminates, copies and shifts inside the buffers. -/
theorem cliBuffers_inside {s₀ : SearchState} {calls : List (CliFocus × List ReadResult)}
    (h0 : searchStateInit cliInitBuf cliMaxBuf = some s₀) (h : Exec ClientStep s₀ calls s)
    (focus : CliFocus) (input : List ReadResult) :
    s.used ≤ s.capacity ∧ s.capacity ≤ cliMaxBuf ∧
      ∀ a ∈ requestAccesses focus s input, a.Inside := by
  obtain ⟨hready, -, hlimit⟩ := searchStateInit_spec h0
  obtain ⟨hs, hmax⟩ : s.Ready ∧ s.max_capacity = cliMaxBuf := by
    refine h.invariant (I := fun s => s.Ready ∧ s.max_capacity = cliMaxBuf) ⟨hready, hlimit⟩ ?_
    rintro t call u ⟨ht, hmax⟩ hstep
    exact ⟨clientStep_ready ht hstep, (clientStep_max_capacity ht hstep).trans hmax⟩
  exact ⟨hs.room.le, hmax ▸ hs.bounded, requestAccesses_inside focus hs hmax input⟩

/-- Two lines in one read: both are copied, and the second is shifted to the front. -/
theorem cliBuffers_inside_lines :
    searchStateInit cliInitBuf cliMaxBuf = some ⟨[], 256, 2048, 0, 0⟩ ∧
      requestAccesses .stays ⟨[], 256, 2048, 0, 0⟩ [.interrupted, .data [63, 10, 63, 10]] =
        [.receive 256 0 256, .receive 256 0 256, .receive 256 4 1, .command 4 2, .command 4 4,
          .shift 256 4 1 2] ∧
      ∀ a ∈ requestAccesses .stays ⟨[], 256, 2048, 0, 0⟩ [.interrupted, .data [63, 10, 63, 10]],
        a.Inside := by
  have h0 : searchStateInit cliInitBuf cliMaxBuf = some ⟨[], 256, 2048, 0, 0⟩ := rfl
  exact ⟨h0, by decide +kernel, (cliBuffers_inside h0 .nil .stays _).2.2⟩

end BirRouter
