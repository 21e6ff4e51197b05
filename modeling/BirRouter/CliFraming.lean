import BirRouter.Cli
import BirRouter.Lib.Trace

/-!
# Clients of the command line server

* `cliClientHandleRequest_survives_iff` — from every state a client can bring about, a check of the
  server fails on a request exactly if it finds its first newline behind a NUL: `read_search` looks at
  bytes, `cli_parser_handle_client` at a string.  The check after the end of file and the default branch
  never fail (`request_died_iff`).
* `serve_lines_iff` — a client that sends no NUL and no long line gets its lines executed, each once
  and in order, exactly if no read goes on behind its first newline.  Behind one, the shift of the
  buffer keeps the newline instead of the last byte, and a further newline runs the first line
  again (`request_found`).

The call of `yyparse` is taken to return.  Its scanner may still end the process on a long line:
`do_before_each_action` copies to a buffer of 256 bytes with a size that wraps around once the column is
beyond its end.
-/

set_option autoImplicit false

namespace BirRouter

open ByteLayout CString Trace

variable {s : SearchState}

theorem searchStateInit_spec {init_size max_size : Nat}
    (h : searchStateInit init_size max_size = some s) :
    s.Ready ∧ s.chbuf = [] ∧ s.max_capacity = max_size := by
  rw [searchStateInit] at h
  split at h
  · cases h
  · rename_i hsize
    cases h
    refine ⟨⟨List.not_mem_nil, Nat.le_refl _, ?_, ?_⟩, rfl, rfl⟩
    · exact Nat.pos_of_ne_zero fun h0 => hsize (Or.inl h0)
    · exact Nat.le_of_not_lt fun hlt => hsize (Or.inr hlt)

/-! ## Survival -/

/-- The thread of one client.  The result of the first request is ignored and what it read is
thrown away; after that a client whose request returns FALSE is gone. -/
inductive ClientStep : SearchState → CliFocus × List ReadResult → SearchState → Prop
  | first {s t : SearchState} {focus : CliFocus} {input rest : List ReadResult} {alive : Bool}
      {executed : List (List Byte)}
      (h : cliClientHandleRequest focus s input = .returned alive t rest executed) :
      ClientStep s (focus, input)
        { t with chbuf := [], search_offset := 0, needle_offset := 0 }
  | next {s t : SearchState} {focus : CliFocus} {input rest : List ReadResult}
      {executed : List (List Byte)}
      (h : cliClientHandleRequest focus s input = .returned true t rest executed) :
      ClientStep s (focus, input) t

/-- The newline that ends the first command of the buffer is behind a NUL. -/
def SearchState.Hidden (s : SearchState) (input : List ReadResult) : Prop :=
  newline ∈ s.filled input ∧ (s.filled input).length < s.max_capacity ∧
    newline ∉ (s.filled input).takeWhile (· ≠ 0)

/-- A request ends the process if the newline is hidden, at the check of the parser.  Otherwise it
waits or returns; it keeps the buffer within its limit, and a client that stays finds it ready. -/
theorem request_cases (focus : CliFocus) (h : s.Ready) (input : List ReadResult) :
    (s.Hidden input ∧ cliClientHandleRequest focus s input =
      .died "Error: cli_parser_handle_client called when sbuf has no newline char") ∨
    (¬ s.Hidden input ∧ (cliClientHandleRequest focus s input = .blocked ∨
      ∃ alive t rest executed,
        cliClientHandleRequest focus s input = .returned alive t rest executed ∧
          0 < t.capacity ∧ t.capacity ≤ t.max_capacity ∧ (alive = true → t.Ready))) := by
  by_cases hn : newline ∈ s.filled input
  · obtain ⟨rest, ⟨hmax, hq⟩ | ⟨hlt, c, hc, hcm, hq⟩⟩ := request_newline focus h hn
    · refine Or.inr ⟨fun hh => Nat.ne_of_lt hh.2.1 hmax, Or.inr ⟨_, _, _, _, hq, ?_, h.bounded, ?_⟩⟩
      · exact Nat.zero_lt_of_lt h.room
      · exact fun e => absurd e (by decide)
    · have h0 := Nat.zero_lt_of_lt hc
      rcases cliParserHandleClient_cases focus (s.handed input c) rest with
        ⟨hnul, hp⟩ | ⟨hyes, ex, hp | hp⟩
      · exact Or.inl ⟨⟨hn, hlt, hnul⟩, hq.trans hp⟩
      · exact Or.inr ⟨fun hh => hh.2.2 hyes, Or.inr ⟨_, _, _, _, hq.trans hp, h0, hcm,
          fun e => absurd e (by decide)⟩⟩
      · exact Or.inr ⟨fun hh => hh.2.2 hyes, Or.inr ⟨_, _, _, _, hq.trans hp, h0, hcm,
          fun _ => shift_ready hc hcm⟩⟩
  · refine Or.inr ⟨fun hh => hn hh.1, ?_⟩
    rcases request_no_newline focus h hn with hq | ⟨c, rest, h0, hcm, hq | ⟨hc, hq⟩⟩
    · exact Or.inl hq
    · exact Or.inr ⟨_, _, _, _, hq, h0, hcm, fun e => absurd e (by decide)⟩
    · exact Or.inr ⟨_, _, _, _, hq, h0, hcm,
        fun _ => ⟨fun hm => hn (List.mem_of_mem_take hm), Nat.le_refl _, hc, hcm⟩⟩

theorem request_returned {focus : CliFocus} {input rest : List ReadResult} {alive : Bool}
    {t : SearchState} {executed : List (List Byte)} (h : s.Ready)
    (hr : cliClientHandleRequest focus s input = .returned alive t rest executed) :
    0 < t.capacity ∧ t.capacity ≤ t.max_capacity ∧ (alive = true → t.Ready) := by
  rcases request_cases focus h input with ⟨-, hq⟩ | ⟨-, hq | ⟨_, _, _, _, hq, hspec⟩⟩
  · cases hq.symm.trans hr
  · cases hq.symm.trans hr
  · cases hq.symm.trans hr
    exact hspec

theorem clientStep_ready {t : SearchState} {call : CliFocus × List ReadResult} (h : s.Ready)
    (hs : ClientStep s call t) : t.Ready := by
  cases hs with
  | first hr =>
    obtain ⟨h0, hb, -⟩ := request_returned h hr
    exact ⟨List.not_mem_nil, Nat.le_refl _, h0, hb⟩
  | next hr => exact (request_returned h hr).2.2 rfl

/-- Only the check of the parser can fail, and it does if the newline is hidden. -/
theorem request_died_iff (focus : CliFocus) (h : s.Ready) (input : List ReadResult)
    (message : String) :
    cliClientHandleRequest focus s input = .died message ↔ s.Hidden input ∧
      message = "Error: cli_parser_handle_client called when sbuf has no newline char" := by
  rcases request_cases focus h input with ⟨hh, hq⟩ | ⟨hh, hq | ⟨_, _, _, _, hq, -⟩⟩
  · rw [hq]
    exact ⟨fun e => ⟨hh, (RequestResult.died.inj e).symm⟩, fun e => by rw [e.2]⟩
  · rw [hq]
    exact ⟨fun e => (nomatch e), fun e => absurd e.1 hh⟩
  · rw [hq]
    exact ⟨fun e => (nomatch e), fun e => absurd e.1 hh⟩

/-- **What a client can do to the router.**  In every state that the requests of a client lead to, a
check fails on a further request exactly if the buffer it is answered from has its first newline
behind a NUL and is not full; it is then the one of the parser.  What the scanner does with the line
is not part of this. -/
theorem cliClientHandleRequest_survives_iff {s₀ : SearchState}
    {calls : List (CliFocus × List ReadResult)}
    (h0 : searchStateInit cliInitBuf cliMaxBuf = some s₀) (h : Exec ClientStep s₀ calls s)
    (focus : CliFocus) (input : List ReadResult) :
    ((∀ message, cliClientHandleRequest focus s input ≠ .died message) ↔
      (newline ∈ s.filled input → (s.filled input).length < s.max_capacity →
        newline ∈ (s.filled input).takeWhile (· ≠ 0))) ∧
    ∀ message, cliClientHandleRequest focus s input = .died message →
      message = "Error: cli_parser_handle_client called when sbuf has no newline char" := by
  have hready : s.Ready := h.invariant (searchStateInit_spec h0).1 clientStep_ready
  have hdied := request_died_iff focus hready input
  refine ⟨?_, fun message hd => ((hdied message).1 hd).2⟩
  constructor
  · intro hsurvives hn hlt
    by_contra hnul
    exact hsurvives _ ((hdied _).2 ⟨⟨hn, hlt, hnul⟩, rfl⟩)
  · intro hseen message hd
    obtain ⟨⟨hn, hlt, hnul⟩, -⟩ := (hdied message).1 hd
    exact hnul (hseen hn hlt)

theorem cliClientHandleRequest_survives_line :
    searchStateInit cliInitBuf cliMaxBuf = some ⟨[], 256, 2048, 0, 0⟩ ∧
      ∀ message, cliClientHandleRequest .stays ⟨[], 256, 2048, 0, 0⟩ [.data [63, 10]] ≠
        .died message := by
  have h0 : searchStateInit cliInitBuf cliMaxBuf = some ⟨[], 256, 2048, 0, 0⟩ := rfl
  exact ⟨h0, (cliClientHandleRequest_survives_iff h0 .nil .stays [.data [63, 10]]).1.2
    fun _ _ => by decide⟩

/-- A client that sends a NUL and a newline ends the router with its first request. -/
theorem cliClientHandleRequest_nul_newline :
    searchStateInit cliInitBuf cliMaxBuf = some ⟨[], 256, 2048, 0, 0⟩ ∧
      cliClientHandleRequest .stays ⟨[], 256, 2048, 0, 0⟩ [.data [0, 10]] =
        .died "Error: cli_parser_handle_client called when sbuf has no newline char" := by
  decide

/-! ## What the parser executes -/

theorem firstLine_take {sbuf : List Byte} {p : Nat} (h : sbuf.idxOf newline ≤ p) :
    firstLine (sbuf.take (p + 1)) = firstLine sbuf := by
  have hidx : (sbuf.take (p + 1)).idxOf newline = sbuf.idxOf newline := by
    by_cases hn : newline ∈ sbuf.take (p + 1)
    · conv_rhs => rw [← List.take_append_drop (p + 1) sbuf, List.idxOf_append_of_mem hn]
    · have hlen : sbuf.length ≤ p + 1 := by
        by_contra hlt
        have hsplit : sbuf.idxOf newline = (sbuf.take (p + 1)).length +
            (sbuf.drop (p + 1)).idxOf newline := by
          conv_lhs => rw [← List.take_append_drop (p + 1) sbuf, List.idxOf_append_of_notMem hn]
        rw [List.length_take_of_le (by omega)] at hsplit
        omega
      rw [List.take_of_length_le hlen]
  rw [firstLine, firstLine, hidx, List.take_take, Nat.min_eq_left (Nat.succ_le_succ h)]

theorem parseCommands_stays (sbuf : List Byte) : ∀ (pchs : List Nat) (executed : List (List Byte)),
    parseCommands .stays sbuf pchs executed =
      (true, executed ++ pchs.map fun pch => firstLine (sbuf.take (pch + 1)))
  | [], executed => by rw [parseCommands, List.map_nil, List.append_nil]
  | pch :: pchs, executed => by
    rw [parseCommands]
    simp only [CliFocus.stays, Bool.false_eq_true, if_false]
    rw [← CliFocus.stays, parseCommands_stays sbuf pchs, List.append_assoc, List.map_cons,
      List.singleton_append]

/-- Of a buffer without a NUL the first line is executed once for each newline. -/
theorem cliParserHandleClient_stays (hnul : 0 ∉ s.chbuf) (hn : newline ∈ s.chbuf)
    (input : List ReadResult) :
    cliParserHandleClient .stays s input = .returned true s.shift input
      (List.replicate (s.chbuf.count newline) (firstLine s.chbuf)) := by
  have hlen : (offsets 0 newline s.chbuf 0).length = s.chbuf.count newline :=
    length_offsets 0 hnul
  have hmap : (offsets 0 newline s.chbuf 0).map (fun pch => firstLine (s.chbuf.take (pch + 1))) =
      List.replicate (s.chbuf.count newline) (firstLine s.chbuf) := by
    refine List.eq_replicate_iff.2 ⟨by rw [List.length_map, hlen], fun l hl => ?_⟩
    obtain ⟨pch, hpch, rfl⟩ := List.mem_map.1 hl
    exact firstLine_take ((Nat.zero_add _).symm.le.trans (idxOf_le_of_mem_offsets hpch))
  rw [cliParserHandleClient]
  cases hoff : offsets 0 newline s.chbuf 0 with
  | nil =>
    rw [hoff] at hlen
    exact absurd (List.count_pos_iff.2 hn) (by rw [← hlen]; exact Nat.lt_irrefl 0)
  | cons pch pchs =>
    simp only
    rw [parseCommands_stays, List.nil_append, ← hoff, hmap]
    rfl

/-- The shift is off by one: what it keeps starts with the newline and lacks the last byte. -/
theorem leftover_found (hneedle : s.needle_offset = s.chbuf.idxOf newline) :
    s.leftover = (s.chbuf.drop (s.chbuf.idxOf newline)).take
      (s.used - s.chbuf.idxOf newline - 1) := by
  rw [SearchState.leftover, hneedle]
  split
  · congr 1
    omega
  · rw [show s.used - s.chbuf.idxOf newline - 1 = 0 by omega, List.take_zero]

/-- Something is left exactly if a byte follows the newline, and it holds a newline again. -/
theorem newline_mem_leftover (hneedle : s.needle_offset = s.chbuf.idxOf newline)
    (hn : newline ∈ s.chbuf) : newline ∈ s.leftover ↔ s.chbuf.idxOf newline + 1 < s.used := by
  have hidx := List.idxOf_lt_length_of_mem hn
  rw [leftover_found hneedle, List.drop_eq_getElem_cons hidx, List.getElem_idxOf hidx]
  constructor
  · intro hm
    by_contra hle
    rw [show s.used - s.chbuf.idxOf newline - 1 = 0 by omega] at hm
    exact absurd hm List.not_mem_nil
  · intro hlt
    obtain ⟨k, hk⟩ := Nat.exists_eq_succ_of_ne_zero
      (show s.used - s.chbuf.idxOf newline - 1 ≠ 0 by omega)
    rw [hk, List.take_succ_cons]
    exact List.mem_cons_self

/-! ## Reads -/

/-- The state in which the thread waits for the next read: nothing to execute is left. -/
structure SearchState.Waiting (limit : Nat) (s : SearchState) : Prop where
  ready : s.Ready
  unfinished : newline ∉ s.chbuf
  nulFree : 0 ∉ s.chbuf
  limited : s.max_capacity = limit

/-- The requests made until the thread waits again, for a read of `bytes`. -/
def serveRead (s : SearchState) (bytes : List Byte) : Option (SearchState × List (List Byte)) :=
  requestLoop (s.used + 2 * bytes.length + 2) s [.data bytes]

/-- The requests for successive reads, in a session that no command ends: the state in which the
thread waits at last, and all that was executed. -/
def serve (s : SearchState) : List (List Byte) → Option (SearchState × List (List Byte))
  | [] => some (s, [])
  | bytes :: reads =>
    (serveRead s bytes).bind fun r => (serve r.1 reads).map fun q => (q.1, r.2 ++ q.2)

/-- No read returns more than it was asked for. -/
def readsFit (s : SearchState) : List (List Byte) → Bool
  | [] => true
  | bytes :: reads =>
    decide (bytes.length ≤ s.amount) && (serveRead s bytes).all fun r => readsFit r.1 reads

/-- The read has no byte behind its first newline. -/
def EndsAtNewline (bytes : List Byte) : Prop := newline ∉ bytes.dropLast

instance (bytes : List Byte) : Decidable (EndsAtNewline bytes) :=
  inferInstanceAs (Decidable (newline ∉ bytes.dropLast))

section

variable {bytes : List Byte}

theorem EndsAtNewline.exists_line (h : EndsAtNewline bytes) (hn : newline ∈ bytes) :
    ∃ l, newline ∉ l ∧ bytes = l ++ [newline] := by
  have hne : bytes ≠ [] := List.ne_nil_of_mem hn
  have hsplit := List.dropLast_concat_getLast hne
  refine ⟨bytes.dropLast, h, ?_⟩
  rw [← hsplit] at hn
  have hlast := List.mem_singleton.1 ((List.mem_append.1 hn).resolve_left h)
  conv_lhs => rw [← hsplit, ← hlast]

/-- Bytes that end at their first newline are one line. -/
theorem EndsAtNewline.idxOf_eq (h : EndsAtNewline bytes) (hn : newline ∈ bytes) :
    bytes.idxOf newline + 1 = bytes.length := by
  obtain ⟨l, hl, rfl⟩ := h.exists_line hn
  rw [List.idxOf_append_of_notMem hl, List.idxOf_cons_self, List.length_append]
  rfl

theorem EndsAtNewline.count_eq (h : EndsAtNewline bytes) (hn : newline ∈ bytes) :
    bytes.count newline = 1 := by
  obtain ⟨l, hl, rfl⟩ := h.exists_line hn
  rw [List.count_append, List.count_eq_zero.2 hl, List.count_singleton_self]

theorem EndsAtNewline.firstLine_eq (h : EndsAtNewline bytes) (hn : newline ∈ bytes) :
    firstLine bytes = bytes := by
  rw [firstLine, h.idxOf_eq hn, List.take_length]

theorem idxOf_lt_of_not_endsAtNewline (h : ¬ EndsAtNewline bytes) :
    bytes.idxOf newline + 1 < bytes.length := by
  have hm : newline ∈ bytes.dropLast := not_not.1 h
  have hlt := List.idxOf_lt_length_of_mem hm
  have hne : bytes ≠ [] := List.ne_nil_of_mem (List.dropLast_subset _ hm)
  have hidx : bytes.idxOf newline = bytes.dropLast.idxOf newline := by
    conv_lhs => rw [← List.dropLast_concat_getLast hne, List.idxOf_append_of_mem hm]
  rw [List.length_dropLast] at hlt
  omega

theorem endsAtNewline_append {cur : List Byte} (hcur : newline ∉ cur) (hne : bytes ≠ []) :
    EndsAtNewline (cur ++ bytes) ↔ EndsAtNewline bytes := by
  rw [EndsAtNewline, EndsAtNewline, List.dropLast_append_of_ne_nil hne, List.mem_append,
    or_iff_right hcur]

end

theorem readSearch_again (h : s.Ready) (hn : newline ∈ s.chbuf) (input : List ReadResult) :
    readSearch s input = some (0, s.found, input) := by
  rw [readSearch, search_found h.searched h.offset hn]

theorem readSearch_read {bytes : List Byte} (h : s.Ready) (hn : newline ∉ s.chbuf)
    (hne : bytes ≠ []) (hfit : bytes.length ≤ s.amount) :
    readSearch s [.data bytes] =
      if newline ∈ bytes then some (0, (s.extend bytes).found, [])
      else some (-3, (s.extend bytes).exhausted, []) := by
  have hdata := readRounds_data (s := s.exhausted) h.room rfl hn bytes []
  have hamount : s.exhausted.amount = s.amount := rfl
  simp only at hdata
  rw [hamount, List.take_of_length_le hfit, if_neg hne, if_neg (Nat.not_lt.2 hfit)] at hdata
  rw [readSearch, search_exhausted h.offset hn]
  exact hdata

/-- The request that finds a newline, in a session that goes on: the first line is executed once for
each newline, and the buffer is shifted. -/
theorem request_found {t : SearchState} {input rest : List ReadResult}
    (hread : readSearch s input = some (0, t.found, rest)) (hn : newline ∈ t.chbuf)
    (hnul : 0 ∉ t.chbuf) (hu : t.used ≤ t.capacity) (hb : t.capacity ≤ t.max_capacity) :
    (t.used = t.max_capacity ∧
      cliClientHandleRequest .stays s input = .returned false t.found rest []) ∨
    (t.used < t.max_capacity ∧ ∃ u, u.Ready ∧ u.max_capacity = t.max_capacity ∧
      u.chbuf = t.found.leftover ∧ cliClientHandleRequest .stays s input =
        .returned true u rest (List.replicate (t.chbuf.count newline) (firstLine t.chbuf))) := by
  have h0 : 0 < t.capacity := lt_of_lt_of_le (List.length_pos_of_mem hn) hu
  rcases request_of_read .stays hread hu h0 hb with hfull | ⟨hlt, c, hc, hcm, hr⟩
  · exact Or.inl hfull
  · refine Or.inr ⟨hlt, SearchState.shift { t.found with capacity := c }, shift_ready hc hcm, rfl,
      rfl, ?_⟩
    rw [hr]
    exact cliParserHandleClient_stays (s := { t.found with capacity := c }) hnul hn rest

theorem mem_chbuf_of_mem_leftover {b : Byte} (h : b ∈ s.leftover) : b ∈ s.chbuf := by
  rw [SearchState.leftover] at h
  split at h
  · exact List.mem_of_mem_drop (List.mem_of_mem_take h)
  · exact absurd h List.not_mem_nil

theorem length_leftover_lt (hneedle : s.needle_offset = s.chbuf.idxOf newline)
    (hn : newline ∈ s.chbuf) : s.leftover.length < s.used := by
  have hpos := List.length_pos_of_mem hn
  rw [leftover_found hneedle, List.length_take]
  exact lt_of_le_of_lt (Nat.min_le_left ..) (by rw [SearchState.used]; omega)

/-- With no more input the thread executes what the buffer holds and then waits. -/
theorem requestLoop_drains : ∀ {n : Nat} {s : SearchState}, s.Ready → 0 ∉ s.chbuf → s.used < n →
    ∃ t out, requestLoop n s [] = some (t, out) ∧ t.Waiting s.max_capacity ∧
      (newline ∈ s.chbuf → out ≠ []) ∧ (newline ∉ s.chbuf → t = s ∧ out = [])
  | n + 1, s, h, hnul, hlt => by
    by_cases hn : newline ∈ s.chbuf
    · -- the leftover is shorter, so a bounded number of requests empties the buffer
      have hroom := h.room
      have hbounded := h.bounded
      obtain ⟨hmax, -⟩ | ⟨-, u, hu, humax, hchbuf, hr⟩ :=
        request_found (readSearch_again h hn []) hn hnul h.room.le h.bounded
      · omega
      have hleft : u.used < s.used := by
        rw [SearchState.used, hchbuf]
        exact length_leftover_lt (s := s.found) rfl hn
      have hunul : 0 ∉ u.chbuf := fun h0 => by
        rw [hchbuf] at h0
        exact hnul (mem_chbuf_of_mem_leftover (s := s.found) h0)
      obtain ⟨t, out, hloop, ht, -, -⟩ := requestLoop_drains (n := n) hu hunul (by omega)
      refine ⟨t, List.replicate (s.chbuf.count newline) (firstLine s.chbuf) ++ out,
        by rw [requestLoop, hr]; simp only [hloop, Option.map_some], ?_, ?_,
        fun hno => absurd hn hno⟩
      · rwa [humax] at ht
      · intro _ hnil
        have hcount := List.count_pos_iff.2 hn
        have := congrArg List.length hnil
        rw [List.length_append, List.length_replicate, List.length_nil] at this
        omega
    · have hblocked : cliClientHandleRequest .stays s [] = .blocked := by
        rw [cliClientHandleRequest, readSearch, search_exhausted h.offset hn]
        simp only
        rw [readRounds, grow_of_lt (s := s.exhausted) h.room]
        rfl
      refine ⟨s, [], by rw [requestLoop, hblocked], ⟨h, hn, hnul, rfl⟩, fun hyes => absurd hyes hn,
        fun _ => ⟨rfl, rfl⟩⟩

section

variable {limit : Nat} {bytes : List Byte}

theorem length_extend_le (h : s.Ready) (hfit : bytes.length ≤ s.amount) :
    (s.extend bytes).used ≤ s.capacity := by
  have hroom : s.chbuf.length < s.capacity := h.room
  rw [SearchState.amount, SearchState.used] at hfit
  rw [SearchState.used, SearchState.extend, List.length_append]
  omega

/-- A read without a newline is added to the buffer. -/
theorem serveRead_open (h : s.Waiting limit) (hne : bytes ≠ []) (hfit : bytes.length ≤ s.amount)
    (hnul : 0 ∉ bytes) (hn : newline ∉ bytes) :
    ((s.chbuf ++ bytes).length = limit ∧ serveRead s bytes = none) ∨
      ∃ t, t.Waiting limit ∧ t.chbuf = s.chbuf ++ bytes ∧ serveRead s bytes = some (t, []) := by
  have hread := readSearch_read h.ready h.unfinished hne hfit
  have hopen : newline ∉ s.chbuf ++ bytes := mt List.mem_append.1 (not_or.2 ⟨h.unfinished, hn⟩)
  have hfree : 0 ∉ s.chbuf ++ bytes := mt List.mem_append.1 (not_or.2 ⟨h.nulFree, hnul⟩)
  rw [if_neg hn] at hread
  rw [serveRead, requestLoop]
  rcases request_of_read .stays hread (length_extend_le h.ready hfit)
    (Nat.zero_lt_of_lt h.ready.room) h.ready.bounded with ⟨hmax, hr⟩ | ⟨-, c, hc, hcm, hr⟩
  · exact Or.inl ⟨hmax.trans h.limited, by rw [hr]⟩
  · refine Or.inr ?_
    have hu : ({ (s.extend bytes).exhausted with capacity := c } : SearchState).Ready :=
      ⟨fun hm => hopen (List.mem_of_mem_take hm), Nat.le_refl _, hc, hcm⟩
    obtain ⟨t, out, hloop, ht, -, hsame⟩ := requestLoop_drains hu hfree
      (n := s.used + 2 * bytes.length + 1) (by
        show (s.chbuf ++ bytes).length < _
        rw [List.length_append, SearchState.used]
        omega)
    obtain ⟨rfl, rfl⟩ := hsame hopen
    refine ⟨_, h.limited ▸ ht, rfl, ?_⟩
    rw [hr]
    simp only [handleResult, if_true, hloop, Option.map_some, List.nil_append]

/-- A read with a newline.  If it ends there, the line is executed and the buffer is empty;
otherwise more is executed than there are newlines. -/
theorem serveRead_line (h : s.Waiting limit) (hfit : bytes.length ≤ s.amount) (hnul : 0 ∉ bytes)
    (hn : newline ∈ bytes) :
    ((s.chbuf ++ bytes).length = limit ∧ serveRead s bytes = none) ∨
      ∃ t out, t.Waiting limit ∧ serveRead s bytes = some (t, out) ∧
        (EndsAtNewline bytes → out = [s.chbuf ++ bytes] ∧ t.chbuf = []) ∧
        (¬ EndsAtNewline bytes → bytes.count newline < out.length) := by
  have hne := List.ne_nil_of_mem hn
  have hread := readSearch_read h.ready h.unfinished hne hfit
  have hmem : newline ∈ (s.extend bytes).chbuf := List.mem_append_right _ hn
  have hfree : 0 ∉ (s.extend bytes).chbuf :=
    mt List.mem_append.1 (not_or.2 ⟨h.nulFree, hnul⟩)
  rw [if_pos hn] at hread
  rw [← endsAtNewline_append h.unfinished hne, serveRead, requestLoop]
  rcases request_found hread hmem hfree (length_extend_le h.ready hfit) h.ready.bounded with
    ⟨hmax, hr⟩ | ⟨-, u, hu, humax, hchbuf, hr⟩
  · exact Or.inl ⟨hmax.trans h.limited, by rw [hr]⟩
  refine Or.inr ?_
  have hleft := newline_mem_leftover (s := (s.extend bytes).found) rfl hmem
  have hshort := length_leftover_lt (s := (s.extend bytes).found) rfl hmem
  have hufree : 0 ∉ u.chbuf := fun h0 => by
    rw [hchbuf] at h0
    exact hfree (mem_chbuf_of_mem_leftover (s := (s.extend bytes).found) h0)
  obtain ⟨t, out, hloop, ht, hmore, hsame⟩ := requestLoop_drains hu hufree
    (n := s.used + 2 * bytes.length + 1) (by
      rw [SearchState.used, hchbuf]
      have hused : (s.extend bytes).used = s.used + bytes.length := List.length_append
      have hlt : (s.extend bytes).found.leftover.length < (s.extend bytes).used := hshort
      omega)
  rw [humax] at ht
  rw [← hchbuf] at hleft
  refine ⟨t, _, h.limited ▸ ht, by rw [hr]; simp only [hloop, Option.map_some]; rfl, ?_, ?_⟩
  · intro hend
    have hidx := hend.idxOf_eq hmem
    have hnil : u.chbuf = [] := by
      rw [hchbuf, leftover_found rfl]
      refine List.take_eq_nil_iff.2 (Or.inl ?_)
      show (s.chbuf ++ bytes).length - (s.chbuf ++ bytes).idxOf newline - 1 = 0
      omega
    obtain ⟨rfl, rfl⟩ := hsame (by rw [hnil]; exact List.not_mem_nil)
    refine ⟨?_, hnil⟩
    rw [s.chbuf_extend, hend.count_eq hmem, hend.firstLine_eq hmem, List.append_nil,
      List.replicate_one]
  · intro hend
    have hout := List.length_pos_of_ne_nil (hmore (hleft.2 (idxOf_lt_of_not_endsAtNewline hend)))
    rw [List.length_append, List.length_replicate, s.chbuf_extend, List.count_append]
    omega

/-- What one read leads to, unless it fills the buffer up to its limit. -/
theorem serveRead_cases (h : s.Waiting limit) (hne : bytes ≠ []) (hfit : bytes.length ≤ s.amount)
    (hnul : 0 ∉ bytes) :
    ((s.chbuf ++ bytes).length = limit ∧ serveRead s bytes = none) ∨
      ∃ t out, t.Waiting limit ∧ serveRead s bytes = some (t, out) ∧
        (EndsAtNewline bytes → (out, t.chbuf) = cut newline s.chbuf bytes) ∧
        (¬ EndsAtNewline bytes → bytes.count newline < out.length) := by
  by_cases hn : newline ∈ bytes
  · refine (serveRead_line h hfit hnul hn).imp_right ?_
    rintro ⟨t, out, ht, hr, hgood, hbad⟩
    refine ⟨t, out, ht, hr, fun hend => ?_, hbad⟩
    obtain ⟨rfl, hchbuf⟩ := hgood hend
    obtain ⟨l, hl, rfl⟩ := hend.exists_line hn
    rw [cut_concat _ hl, hchbuf, List.append_assoc]
  · refine (serveRead_open h hne hfit hnul hn).imp_right ?_
    rintro ⟨t, ht, hchbuf, hr⟩
    refine ⟨t, [], ht, hr, fun _ => ?_, fun hbad => ?_⟩
    · rw [cut_of_not_mem hn, hchbuf]
    · exact absurd (fun hm => hn (List.dropLast_subset _ hm)) hbad

/-- The line that a read completes or lengthens is among those of the stream. -/
theorem exists_long_line (hend : EndsAtNewline bytes) (cur more : List Byte) :
    ∃ l ∈ (cut newline cur (bytes ++ more)).2 :: (cut newline cur (bytes ++ more)).1,
      (cur ++ bytes).length ≤ l.length := by
  rw [cut_append]
  by_cases hn : newline ∈ bytes
  · obtain ⟨l, hl, rfl⟩ := hend.exists_line hn
    rw [cut_concat _ hl]
    exact ⟨cur ++ l ++ [newline], by simp, by rw [List.append_assoc]⟩
  · rw [cut_of_not_mem hn]
    exact cut_longer (cur ++ bytes) more

/-- Successive reads that the system can make from a state, of bytes other than NUL. -/
structure Readable (s : SearchState) (reads : List (List Byte)) : Prop where
  nonempty : ∀ bytes ∈ reads, bytes ≠ []
  nulFree : 0 ∉ reads.flatten
  fit : readsFit s reads = true

/-- The first read by `serveRead_cases`, and the others from the state it leads to. -/
theorem Readable.first {reads : List (List Byte)} (h : s.Waiting limit)
    (hr : Readable s (bytes :: reads)) :
    ((s.chbuf ++ bytes).length = limit ∧ serveRead s bytes = none) ∨
      ∃ t out, t.Waiting limit ∧ Readable t reads ∧ serveRead s bytes = some (t, out) ∧
        (EndsAtNewline bytes → (out, t.chbuf) = cut newline s.chbuf bytes) ∧
        (¬ EndsAtNewline bytes → bytes.count newline < out.length) := by
  obtain ⟨hne, hnul, hfit⟩ := hr
  rw [List.flatten_cons] at hnul
  obtain ⟨hnul, hnuls⟩ := not_or.1 (mt List.mem_append.2 hnul)
  obtain ⟨hne, hnes⟩ := List.forall_mem_cons.1 hne
  rw [readsFit, Bool.and_eq_true, decide_eq_true_eq] at hfit
  obtain ⟨hfit, hfits⟩ := hfit
  refine (serveRead_cases h hne hfit hnul).imp_right ?_
  rintro ⟨t, out, ht, hserve, hends⟩
  rw [hserve] at hfits
  exact ⟨t, out, ht, ⟨hnes, hnuls, hfits⟩, hserve, hends⟩

theorem serve_cons {reads : List (List Byte)} {t : SearchState} {out : List (List Byte)}
    (h : serveRead s bytes = some (t, out)) :
    serve s (bytes :: reads) = (serve t reads).map fun q => (q.1, out ++ q.2) := by
  rw [serve, h]
  rfl

/-- Reads that end at their first newline are executed line by line. -/
theorem serve_lines : ∀ {reads : List (List Byte)} {s : SearchState}, s.Waiting limit →
    Readable s reads → (∀ bytes ∈ reads, EndsAtNewline bytes) →
    (∀ l ∈ (cut newline s.chbuf reads.flatten).2 :: (cut newline s.chbuf reads.flatten).1,
      l.length < limit) →
    ∃ t, serve s reads = some (t, (cut newline s.chbuf reads.flatten).1) ∧
      t.chbuf = (cut newline s.chbuf reads.flatten).2
  | [], s, _, _, _, _ => ⟨s, rfl, rfl⟩
  | bytes :: reads, s, h, hread, hends, hshort => by
    obtain ⟨hend, hends⟩ := List.forall_mem_cons.1 hends
    rw [List.flatten_cons] at hshort ⊢
    rcases hread.first h with ⟨hmax, -⟩ | ⟨t, out, ht, hreads, hr, hcut, -⟩
    · obtain ⟨l, hl, hle⟩ := exists_long_line hend s.chbuf reads.flatten
      have := hshort l hl
      omega
    -- the buffer is the incomplete line, and what was executed the lines completed
    rw [cut_append, ← hcut hend] at hshort ⊢
    obtain ⟨t', hserve, ht'⟩ := serve_lines ht hreads hends fun l hl =>
      hshort l ((List.mem_cons.1 hl).elim (fun e => e ▸ List.mem_cons_self)
        fun hl => List.mem_cons_of_mem _ (List.mem_append_right _ hl))
    exact ⟨t', by rw [serve_cons hr, hserve, Option.map_some], ht'⟩

/-- At least as many commands are executed as newlines are read, and more if a read goes on behind
its first newline. -/
theorem serve_count : ∀ {reads : List (List Byte)} {s t : SearchState} {out : List (List Byte)},
    s.Waiting limit → Readable s reads → serve s reads = some (t, out) →
    reads.flatten.count newline ≤ out.length ∧
      ((∃ bytes ∈ reads, ¬ EndsAtNewline bytes) → reads.flatten.count newline < out.length)
  | [], s, t, out, _, _, _ => by simp
  | bytes :: reads, s, t, out, h, hread, hserve => by
    rcases hread.first h with ⟨-, hnone⟩ | ⟨u, out₁, hu, hreads, hr, hcut, hbad⟩
    · rw [serve, hnone] at hserve
      cases hserve
    rw [serve_cons hr, Option.map_eq_some_iff] at hserve
    obtain ⟨⟨t', out₂⟩, hserve, heq⟩ := hserve
    cases heq
    have hle : bytes.count newline ≤ out₁.length := by
      by_cases hend : EndsAtNewline bytes
      · rw [← length_cut s.chbuf bytes, ← hcut hend]
      · exact (hbad hend).le
    obtain ⟨hle', hlt'⟩ := serve_count hu hreads hserve
    rw [List.flatten_cons, List.count_append, List.length_append]
    refine ⟨Nat.add_le_add hle hle', ?_⟩
    rintro ⟨b, hb, hbad'⟩
    rcases List.mem_cons.1 hb with rfl | hb
    · exact Nat.add_lt_add_of_lt_of_le (hbad hbad') hle'
    · exact Nat.add_lt_add_of_le_of_lt hle (hlt' ⟨b, hb, hbad'⟩)

end

/-- **Command framing.**  For a stream without NULs whose lines, newline included, stay below the
limit of the buffer, and for every way to split it into reads: the lines are executed, each once and
in order, and the incomplete last line stays in the buffer, exactly if no read has a byte behind its
first newline. -/
theorem serve_lines_iff {s : SearchState} (h0 : searchStateInit cliInitBuf cliMaxBuf = some s)
    (reads : List (List Byte)) (hne : ∀ bytes ∈ reads, bytes ≠ []) (hnul : 0 ∉ reads.flatten)
    (hshort : ∀ l ∈ (cut newline [] reads.flatten).2 :: (cut newline [] reads.flatten).1,
      l.length < cliMaxBuf)
    (hfit : readsFit s reads = true) :
    (∃ t, serve s reads = some (t, (cut newline [] reads.flatten).1) ∧
        t.chbuf = (cut newline [] reads.flatten).2) ↔
      ∀ bytes ∈ reads, EndsAtNewline bytes := by
  obtain ⟨hready, hnil, hmax⟩ := searchStateInit_spec h0
  have hwait : s.Waiting cliMaxBuf :=
    ⟨hready, by rw [hnil]; exact List.not_mem_nil, by rw [hnil]; exact List.not_mem_nil, hmax⟩
  have hread : Readable s reads := ⟨hne, hnul, hfit⟩
  constructor
  · rintro ⟨t, hserve, -⟩
    by_contra hbad
    simp only [not_forall] at hbad
    obtain ⟨bytes, hb, hbad⟩ := hbad
    have hlt := (serve_count hwait hread hserve).2 ⟨bytes, hb, hbad⟩
    rw [length_cut] at hlt
    exact Nat.lt_irrefl _ hlt
  · intro hends
    rw [← hnil] at hshort ⊢
    exact serve_lines hwait hread hends hshort

/-- Two commands, the second of them in two reads. -/
theorem serve_lines_two_commands :
    ∃ t, serve ⟨[], 256, 2048, 0, 0⟩ [[63, 10], [104], [105, 10]] =
      some (t, [[63, 10], [104, 105, 10]]) ∧ t.chbuf = [] :=
  (serve_lines_iff (s := ⟨[], 256, 2048, 0, 0⟩) rfl [[63, 10], [104], [105, 10]] (by decide)
    (by decide) (by decide) (by decide +kernel)).2 (by decide)

/-- The read `"a\nb"`: the leftover is the newline, which is executed as a command, and `"b"` is
lost. -/
theorem serve_lines_leftover_lost :
    readsFit ⟨[], 256, 2048, 0, 0⟩ [[97, 10, 98]] = true ∧
      cut newline [] [97, 10, 98] = ([[97, 10]], [98]) ∧
      (serve ⟨[], 256, 2048, 0, 0⟩ [[97, 10, 98]]).map (fun r => (r.2, r.1.chbuf)) =
        some ([[97, 10], [10]], []) := by
  decide +kernel

end BirRouter
