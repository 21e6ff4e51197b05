import BirRouter.Lib.CString
import BirRouter.Lib.Layout

/-!
# The command line server

The handler of one client: `read_search` reads into a buffer that grows up to a limit until it
finds a newline, `cli_client_handle_request` acts on the result, and `cli_parser_handle_client`
hands the lines of the buffer to the parser.

What the outside decides is passed in: what `read` returns, in the list `ReadResult`s, and whether
the session goes on after a command, in `CliFocus`.  A call that waits for input is `blocked`; one
that ends the process is `died` with the message of its check.

* `SearchState.Ready` — what holds of the search state between two calls;
* `readSearch_cases` — what `read_search` returns from such a state;
* `cliParserHandleClient_cases` — the parser dies, bails out or shifts the buffer;
* `request_newline`, `request_no_newline` — what a request does with and without a newline.
-/

set_option autoImplicit false

namespace BirRouter

open ByteLayout CString

/-! ## The search state -/

def newline : Byte := 10

/-- The bytes of `chbuf` that are in use; `used` is their number.  What stands behind them is never
read: `cli_client_handle_request` puts a NUL there before it searches. -/
structure SearchState where
  chbuf : List Byte
  capacity : Nat
  max_capacity : Nat
  search_offset : Nat
  needle_offset : Nat
  deriving DecidableEq, Repr

def SearchState.used (s : SearchState) : Nat := s.chbuf.length

/-- `search_state_init`, which dies on sizes that make no sense. -/
def searchStateInit (init_size max_size : Nat) : Option SearchState :=
  if init_size = 0 ∨ max_size < init_size then none
  else some {
    chbuf := []
    capacity := init_size
    max_capacity := max_size
    search_offset := 0
    needle_offset := 0 }

def cliInitBuf : Nat := 256

def cliMaxBuf : Nat := 2048

/-- `search_state_grow_if_full`, where `realloc` does not fail. -/
def searchStateGrowIfFull (s : SearchState) : Int × SearchState :=
  if s.used = s.capacity then
    let newsize := 2 * s.capacity
    if newsize > s.max_capacity then
      if s.used = s.max_capacity then (2, s)
      else (1, { s with capacity := s.max_capacity })
    else (1, { s with capacity := newsize })
  else (0, s)

/-! ## Reading -/

/-- What `read` comes back with: bytes that have arrived, the end of the file, or an error. -/
inductive ReadResult
  | data (bytes : List Byte)
  | eof
  | interrupted
  | error
  deriving DecidableEq, Repr

/-- The loop that looks for the needle, from an offset on: where it was found, and the new
`search_offset`. -/
def searchNeedle : List Byte → Nat → Option Nat × Nat
  | [], offset => (none, offset)
  | b :: l, offset => if b = newline then (some offset, offset + 1) else searchNeedle l (offset + 1)

def SearchState.search (s : SearchState) : Bool × SearchState :=
  match searchNeedle (s.chbuf.drop s.search_offset) s.search_offset with
  | (some needle, offset) => (true, { s with needle_offset := needle, search_offset := offset })
  | (none, offset) => (false, { s with search_offset := offset })

/-- The number of bytes that `read` is asked for. -/
def SearchState.amount (s : SearchState) : Nat := s.capacity - s.used

/-- The rounds of `read_search` after the first.  An interrupted read is made again; of the bytes
that have arrived `read` takes those that fit. -/
def readRounds (s : SearchState) (input : List ReadResult) :
    Option (Int × SearchState × List ReadResult) :=
  let grown := (searchStateGrowIfFull s).1
  let s := (searchStateGrowIfFull s).2
  if grown = 2 then some (-2, s, input)
  else
    match input with
    | [] => none
    | .interrupted :: input => readRounds s input
    | .error :: input => some (-1, s, input)
    | .eof :: input => some (1, s, input)
    | .data bytes :: input =>
      let amount := s.amount
      let input := if amount < bytes.length then .data (bytes.drop amount) :: input else input
      let nread := (bytes.take amount).length
      if nread = 0 then some (1, s, input)
      else
        match { s with chbuf := s.chbuf ++ bytes.take amount }.search with
        | (true, s) => some (0, s, input)
        | (false, s) => some (-3, s, input)

/-- `read_search` for the needle `"\n"` and at most one read, as it is called.  There is no result
as long as `read` blocks. -/
def readSearch (s : SearchState) (input : List ReadResult) :
    Option (Int × SearchState × List ReadResult) :=
  match s.search with
  | (true, s) => some (0, s, input)
  | (false, s) => readRounds s input

/-! ## Handling a request -/

/-- Whether the session goes on: `ended` says, of the commands that a call has executed so far,
whether the client is gone or the router is shutting down, and `alive` whether the client is still
there after the prompt. -/
structure CliFocus where
  ended : List (List Byte) → Bool
  alive : Bool

/-- No command ends the session. -/
def CliFocus.stays : CliFocus where
  ended := fun _ => false
  alive := true

inductive RequestResult
  | blocked
  | died (message : String)
  | returned (alive : Bool) (s : SearchState) (input : List ReadResult)
      (executed : List (List Byte))
  deriving DecidableEq, Repr

/-- What `yyparse` executes of a command buffer: the grammar accepts at the first newline. -/
def firstLine (cmd : List Byte) : List Byte := cmd.take (cmd.idxOf newline + 1)

/-- The loop over the commands, one round for each newline `pch` that `strchr` finds: whether it
got to the end, and what was executed. -/
def parseCommands (focus : CliFocus) (sbuf : List Byte) :
    List Nat → List (List Byte) → Bool × List (List Byte)
  | [], executed => (true, executed)
  | pch :: pchs, executed =>
    let cmd_buf := sbuf.take (pch + 1)
    let executed := executed ++ [firstLine cmd_buf]
    if focus.ended executed then (false, executed) else parseCommands focus sbuf pchs executed

/-- The leftover bytes that `memmove` puts at the front of the buffer. -/
def SearchState.leftover (s : SearchState) : List Byte :=
  let num : Int := (s.used : Int) - s.needle_offset - 1
  if num > 0 then (s.chbuf.drop s.needle_offset).take num.toNat else []

def SearchState.shift (s : SearchState) : SearchState :=
  { s with
    chbuf := s.leftover
    search_offset := 0
    needle_offset := s.capacity + 1 }

/-- `cli_parser_handle_client` -/
def cliParserHandleClient (focus : CliFocus) (s : SearchState) (input : List ReadResult) :
    RequestResult :=
  match offsets 0 newline s.chbuf 0 with
  | [] => .died "Error: cli_parser_handle_client called when sbuf has no newline char"
  | pch :: pchs =>
    match parseCommands focus s.chbuf (pch :: pchs) [] with
    | (false, executed) => .returned false s input executed
    | (true, executed) => .returned focus.alive s.shift input executed

/-- The result switch of `cli_client_handle_request`. -/
def handleResult (focus : CliFocus) (ret : Int) (s : SearchState) (input : List ReadResult) :
    RequestResult :=
  if ret = -3 then .returned true s input []
  else if ret = -2 then .returned false s input []
  else if ret = -1 then .returned false s input []
  else if ret = 1 then
    if strchr 0 newline s.chbuf = none then .returned false s input []
    else .died "Error: Unexpected newline found after EOF received"
  else if ret = 0 then cliParserHandleClient focus s input
  else .died "Error: invalid return in cli_client_handle_request"

/-- `cli_client_handle_request` -/
def cliClientHandleRequest (focus : CliFocus) (s : SearchState) (input : List ReadResult) :
    RequestResult :=
  match readSearch s input with
  | none => .blocked
  | some (ret, s, input) =>
    let (ret_grow, s) := searchStateGrowIfFull s
    handleResult focus (if ret_grow = 2 ∨ ret_grow = -1 then -2 else ret) s input

/-- The loop of `cli_client_handler_main`, in which no command ends the session, until it waits
for input: the state then, and what was executed.  `n` bounds the calls. -/
def requestLoop : Nat → SearchState → List ReadResult → Option (SearchState × List (List Byte))
  | 0, _, _ => none
  | n + 1, s, input =>
    match cliClientHandleRequest .stays s input with
    | .blocked => some (s, [])
    | .returned true s input executed =>
      (requestLoop n s input).map fun r => (r.1, executed ++ r.2)
    | _ => none

/-! ## What the search state keeps -/

/-- What holds between two calls: no newline has been passed over, and the buffer has room. -/
structure SearchState.Ready (s : SearchState) : Prop where
  searched : newline ∉ s.chbuf.take s.search_offset
  offset : s.search_offset ≤ s.used
  room : s.used < s.capacity
  bounded : s.capacity ≤ s.max_capacity

/-- The state after a search that found the first newline of the buffer. -/
def SearchState.found (s : SearchState) : SearchState :=
  { s with
    needle_offset := s.chbuf.idxOf newline
    search_offset := s.chbuf.idxOf newline + 1 }

/-- The state after a search that found none. -/
def SearchState.exhausted (s : SearchState) : SearchState := { s with search_offset := s.used }

def SearchState.extend (s : SearchState) (bytes : List Byte) : SearchState :=
  { s with chbuf := s.chbuf ++ bytes }

@[simp]
theorem SearchState.chbuf_extend (s : SearchState) (bytes : List Byte) :
    (s.extend bytes).chbuf = s.chbuf ++ bytes := rfl

theorem searchNeedle_of_mem : ∀ {l : List Byte} (i : Nat), newline ∈ l →
    searchNeedle l i = (some (i + l.idxOf newline), i + l.idxOf newline + 1)
  | b :: l, i, h => by
    rw [searchNeedle]
    by_cases hb : b = newline
    · rw [if_pos hb, hb, List.idxOf_cons_self]
      rfl
    · rw [if_neg hb, searchNeedle_of_mem _ ((List.mem_cons.1 h).resolve_left (Ne.symm hb)),
        List.idxOf_cons_ne _ hb]
      simp only [Nat.add_assoc, Nat.add_comm 1]

theorem searchNeedle_of_not_mem : ∀ {l : List Byte} (i : Nat), newline ∉ l →
    searchNeedle l i = (none, i + l.length)
  | [], i, _ => rfl
  | b :: l, i, h => by
    obtain ⟨hb, hl⟩ := not_or.1 (mt List.mem_cons.2 h)
    rw [searchNeedle, if_neg (Ne.symm hb), searchNeedle_of_not_mem _ hl, List.length_cons]
    simp only [Nat.add_assoc, Nat.add_comm 1]

section

variable {s : SearchState}

theorem search_found (hs : newline ∉ s.chbuf.take s.search_offset) (ho : s.search_offset ≤ s.used)
    (h : newline ∈ s.chbuf) : s.search = (true, s.found) := by
  have hsplit := List.take_append_drop s.search_offset s.chbuf
  have hdrop : newline ∈ s.chbuf.drop s.search_offset := by
    rw [← hsplit] at h
    exact (List.mem_append.1 h).resolve_left hs
  have hidx : s.search_offset + (s.chbuf.drop s.search_offset).idxOf newline =
      s.chbuf.idxOf newline := by
    conv_rhs => rw [← hsplit, List.idxOf_append_of_notMem hs, List.length_take_of_le ho]
  rw [SearchState.search, searchNeedle_of_mem _ hdrop, hidx]
  rfl

theorem search_exhausted (ho : s.search_offset ≤ s.used) (h : newline ∉ s.chbuf) :
    s.search = (false, s.exhausted) := by
  rw [SearchState.search, searchNeedle_of_not_mem _ fun hd => h (List.mem_of_mem_drop hd),
    List.length_drop, ← SearchState.used, Nat.add_sub_cancel' ho]
  rfl

/-! ## Growing -/

theorem grow_of_lt (h : s.used < s.capacity) : searchStateGrowIfFull s = (0, s) := by
  rw [searchStateGrowIfFull, if_neg (Nat.ne_of_lt h)]

/-- The buffer is full and as big as it may get, or it has room afterwards. -/
theorem grow_cases (hu : s.used ≤ s.capacity) (h0 : 0 < s.capacity)
    (hb : s.capacity ≤ s.max_capacity) :
    (s.used = s.max_capacity ∧ searchStateGrowIfFull s = (2, s)) ∨
      (s.used < s.max_capacity ∧ ∃ code c, code ≠ 2 ∧ code ≠ -1 ∧ s.used < c ∧
        c ≤ s.max_capacity ∧ searchStateGrowIfFull s = (code, { s with capacity := c })) := by
  by_cases hfull : s.used = s.capacity
  · rw [searchStateGrowIfFull, if_pos hfull]
    simp only
    by_cases hbig : 2 * s.capacity > s.max_capacity
    · rw [if_pos hbig]
      by_cases hmax : s.used = s.max_capacity
      · exact Or.inl ⟨hmax, if_pos hmax⟩
      · exact Or.inr ⟨by omega, 1, s.max_capacity, by decide, by decide, by omega, Nat.le_refl _,
          if_neg hmax⟩
    · exact Or.inr ⟨by omega, 1, 2 * s.capacity, by decide, by decide, by omega, by omega,
        if_neg hbig⟩
  · have hlt : s.used < s.capacity := by omega
    exact Or.inr ⟨by omega, 0, s.capacity, by decide, by decide, hlt, hb, grow_of_lt hlt⟩

/-! ## What a read adds -/

/-- The bytes that a read of at most `amount` bytes takes. -/
def readBytes (amount : Nat) : List ReadResult → List Byte
  | [] => []
  | .interrupted :: input => readBytes amount input
  | .error :: _ => []
  | .eof :: _ => []
  | .data bytes :: _ => bytes.take amount

/-- The buffer a request is answered from: it is read into only if it holds no newline. -/
def SearchState.filled (s : SearchState) (input : List ReadResult) : List Byte :=
  if newline ∈ s.chbuf then s.chbuf else s.chbuf ++ readBytes s.amount input

theorem SearchState.extend_nil (s : SearchState) : s.extend [] = s := by
  rw [SearchState.extend, List.append_nil]

theorem SearchState.exhausted_eq (s : SearchState) (h : s.search_offset = s.used) :
    s.exhausted = s := by
  rw [SearchState.exhausted, ← h]

theorem readRounds_data (h : s.used < s.capacity) (ho : s.search_offset = s.used)
    (hs : newline ∉ s.chbuf) (bytes : List Byte) (input : List ReadResult) :
    let got := bytes.take s.amount
    let rest := if s.amount < bytes.length then .data (bytes.drop s.amount) :: input else input
    readRounds s (.data bytes :: input) =
      if got = [] then some (1, s, rest)
      else if newline ∈ got then some (0, (s.extend got).found, rest)
      else some (-3, (s.extend got).exhausted, rest) := by
  intro got rest
  have hle : (s.extend got).search_offset ≤ (s.extend got).used := by
    show s.search_offset ≤ (s.chbuf ++ got).length
    rw [ho, List.length_append]
    exact Nat.le_add_right _ _
  have hsearched : newline ∉ (s.extend got).chbuf.take (s.extend got).search_offset := by
    show newline ∉ (s.chbuf ++ got).take s.search_offset
    rw [ho, SearchState.used, List.take_left]
    exact hs
  rw [readRounds, grow_of_lt h]
  simp only [show ¬ (0 : Int) = 2 by decide, if_false, List.length_eq_zero_iff]
  by_cases hgot : got = []
  · rw [if_pos hgot, if_pos hgot]
  rw [if_neg hgot, if_neg hgot]
  show (match (s.extend got).search with
    | (true, s) => some (0, s, rest)
    | (false, s) => some (-3, s, rest)) = _
  by_cases hn : newline ∈ got
  · rw [if_pos hn, search_found hsearched hle (List.mem_append_right _ hn)]
  · rw [if_neg hn, search_exhausted hle (mt List.mem_append.1 (not_or.2 ⟨hs, hn⟩))]

/-- Reading into a buffer without a newline: the call blocks, finds the newline in what it read, or
returns with another code and a buffer that still has none. -/
theorem readRounds_cases (h : s.used < s.capacity) (ho : s.search_offset = s.used)
    (hs : newline ∉ s.chbuf) : ∀ input : List ReadResult,
    (newline ∈ readBytes s.amount input ∧ ∃ rest,
      readRounds s input = some (0, (s.extend (readBytes s.amount input)).found, rest)) ∨
    (newline ∉ readBytes s.amount input ∧ (readRounds s input = none ∨ ∃ code rest,
      (code = -1 ∨ code = 1 ∨ code = -3) ∧
        readRounds s input = some (code, (s.extend (readBytes s.amount input)).exhausted, rest)))
  | [] => by
    refine Or.inr ⟨List.not_mem_nil, Or.inl ?_⟩
    rw [readRounds, grow_of_lt h]
    rfl
  | .interrupted :: input => by
    have hstep : readRounds s (.interrupted :: input) = readRounds s input := by
      rw [readRounds, grow_of_lt h]
      rfl
    rw [hstep, readBytes]
    exact readRounds_cases h ho hs input
  | .error :: input => by
    refine Or.inr ⟨List.not_mem_nil, Or.inr ⟨-1, input, Or.inl rfl, ?_⟩⟩
    rw [readRounds, grow_of_lt h, readBytes, s.extend_nil, s.exhausted_eq ho]
    rfl
  | .eof :: input => by
    refine Or.inr ⟨List.not_mem_nil, Or.inr ⟨1, input, Or.inr (Or.inl rfl), ?_⟩⟩
    rw [readRounds, grow_of_lt h, readBytes, s.extend_nil, s.exhausted_eq ho]
    rfl
  | .data bytes :: input => by
    have hdata := readRounds_data h ho hs bytes input
    simp only at hdata
    rw [hdata, readBytes]
    by_cases hgot : bytes.take s.amount = []
    · rw [if_pos hgot, hgot, s.extend_nil, s.exhausted_eq ho]
      exact Or.inr ⟨List.not_mem_nil, Or.inr ⟨1, _, Or.inr (Or.inl rfl), rfl⟩⟩
    rw [if_neg hgot]
    by_cases hn : newline ∈ bytes.take s.amount
    · rw [if_pos hn]
      exact Or.inl ⟨hn, _, rfl⟩
    · rw [if_neg hn]
      exact Or.inr ⟨hn, Or.inr ⟨-3, _, Or.inr (Or.inr rfl), rfl⟩⟩

/-- What `read_search` returns between two calls. -/
theorem readSearch_cases (h : s.Ready) (input : List ReadResult) :
    let t : SearchState := { s with chbuf := s.filled input }
    (newline ∈ t.chbuf ∧ ∃ rest, readSearch s input = some (0, t.found, rest)) ∨
    (newline ∉ t.chbuf ∧ (readSearch s input = none ∨ ∃ code rest,
      (code = -1 ∨ code = 1 ∨ code = -3) ∧ readSearch s input = some (code, t.exhausted, rest))) := by
  intro t
  by_cases hn : newline ∈ s.chbuf
  · have ht : t = s := by simp only [t, SearchState.filled, if_pos hn]
    rw [ht, readSearch, search_found h.searched h.offset hn]
    exact Or.inl ⟨hn, input, rfl⟩
  · have ht : t = s.extend (readBytes s.amount input) := by
      simp only [t, SearchState.filled, if_neg hn, SearchState.extend]
    have hmem : newline ∈ t.chbuf ↔ newline ∈ readBytes s.amount input := by
      rw [ht]
      exact List.mem_append.trans (or_iff_right hn)
    have hread : readSearch s input = readRounds s.exhausted input := by
      rw [readSearch, search_exhausted h.offset hn]
    rw [hmem, hread, ht]
    -- the fruitless search of the first round moves `search_offset` only
    exact readRounds_cases (s := s.exhausted) h.room rfl hn input

/-! ## What a request does -/

theorem length_readBytes_le (amount : Nat) : ∀ input, (readBytes amount input).length ≤ amount
  | [] => Nat.zero_le _
  | .interrupted :: input => length_readBytes_le amount input
  | .error :: _ => Nat.zero_le _
  | .eof :: _ => Nat.zero_le _
  | .data _ :: _ => List.length_take_le ..

theorem length_filled_le (h : s.Ready) (input : List ReadResult) :
    (s.filled input).length ≤ s.capacity := by
  have hroom : s.chbuf.length < s.capacity := h.room
  have hgot : (readBytes s.amount input).length ≤ s.capacity - s.chbuf.length :=
    length_readBytes_le ..
  rw [SearchState.filled]
  split
  · exact hroom.le
  · rw [List.length_append]
    omega

theorem SearchState.length_leftover_le (s : SearchState) : s.leftover.length ≤ s.used := by
  rw [SearchState.leftover]
  split
  · rw [List.length_take, List.length_drop]
    exact (Nat.min_le_right ..).trans (Nat.sub_le ..)
  · exact Nat.zero_le _

theorem shift_ready (hr : s.used < s.capacity) (hb : s.capacity ≤ s.max_capacity) :
    s.shift.Ready where
  searched := List.not_mem_nil
  offset := Nat.zero_le _
  room := lt_of_le_of_lt s.length_leftover_le hr
  bounded := hb

theorem strchr_newline (l : List Byte) :
    strchr 0 newline l = none ↔ newline ∉ l.takeWhile (· ≠ 0) := by
  rw [strchr, List.head?_eq_none_iff, offsets_eq_nil_iff (by decide)]

theorem cliParserHandleClient_cases (focus : CliFocus) (s : SearchState)
    (input : List ReadResult) :
    (newline ∉ s.chbuf.takeWhile (· ≠ 0) ∧ cliParserHandleClient focus s input =
      .died "Error: cli_parser_handle_client called when sbuf has no newline char") ∨
    (newline ∈ s.chbuf.takeWhile (· ≠ 0) ∧ ∃ executed,
      cliParserHandleClient focus s input = .returned false s input executed ∨
      cliParserHandleClient focus s input = .returned focus.alive s.shift input executed) := by
  have hnil := strchr_newline s.chbuf
  rw [strchr, List.head?_eq_none_iff] at hnil
  rw [cliParserHandleClient]
  cases hoff : offsets 0 newline s.chbuf 0 with
  | nil => exact Or.inl ⟨hnil.1 hoff, rfl⟩
  | cons pch pchs =>
    refine Or.inr ⟨not_not.1 (mt hnil.2 (by rw [hoff]; exact List.cons_ne_nil _ _)), ?_⟩
    simp only
    rcases parseCommands focus s.chbuf (pch :: pchs) [] with ⟨_ | _, executed⟩
    · exact ⟨executed, Or.inl rfl⟩
    · exact ⟨executed, Or.inr rfl⟩

/-- After `read_search` the request ends the session if the buffer is full and as big as it may get,
and goes on with more room otherwise. -/
theorem request_of_read (focus : CliFocus) {t : SearchState} {ret : Int}
    {input rest : List ReadResult} (hread : readSearch s input = some (ret, t, rest))
    (hu : t.used ≤ t.capacity) (h0 : 0 < t.capacity) (hb : t.capacity ≤ t.max_capacity) :
    (t.used = t.max_capacity ∧
      cliClientHandleRequest focus s input = .returned false t rest []) ∨
    (t.used < t.max_capacity ∧ ∃ c, t.used < c ∧ c ≤ t.max_capacity ∧
      cliClientHandleRequest focus s input =
        handleResult focus ret { t with capacity := c } rest) := by
  rw [cliClientHandleRequest, hread]
  rcases grow_cases hu h0 hb with ⟨hmax, hg⟩ | ⟨hlt, code, c, h2, h1, hc, hcm, hg⟩
  · refine Or.inl ⟨hmax, ?_⟩
    simp only [hg, true_or, if_true]
    rfl
  · refine Or.inr ⟨hlt, c, hc, hcm, ?_⟩
    simp only [hg, h1, h2, or_self, if_false]

/-- The state in which the newline of the filled buffer is found, with room for `c` bytes. -/
def SearchState.handed (s : SearchState) (input : List ReadResult) (c : Nat) : SearchState :=
  { SearchState.found { s with chbuf := s.filled input } with capacity := c }

/-- A request that finds a newline hands the buffer to the parser, unless the buffer is full and as
big as it may get. -/
theorem request_newline (focus : CliFocus) (h : s.Ready) {input : List ReadResult}
    (hn : newline ∈ s.filled input) :
    ∃ rest, ((s.filled input).length = s.max_capacity ∧
        cliClientHandleRequest focus s input = .returned false (s.handed input s.capacity) rest []) ∨
      ((s.filled input).length < s.max_capacity ∧ ∃ c, (s.filled input).length < c ∧
        c ≤ s.max_capacity ∧ cliClientHandleRequest focus s input =
          cliParserHandleClient focus (s.handed input c) rest) := by
  rcases readSearch_cases h input with ⟨-, rest, hread⟩ | ⟨hno, -⟩
  · exact ⟨rest, request_of_read focus hread (length_filled_le h input)
      (Nat.zero_lt_of_lt h.room) h.bounded⟩
  · exact absurd hn hno

/-- One that finds none waits, keeps what it read, or ends the session. -/
theorem request_no_newline (focus : CliFocus) (h : s.Ready) {input : List ReadResult}
    (hn : newline ∉ s.filled input) :
    let t : SearchState := { s with chbuf := s.filled input }
    cliClientHandleRequest focus s input = .blocked ∨ ∃ c rest, 0 < c ∧ c ≤ s.max_capacity ∧
      (cliClientHandleRequest focus s input =
          .returned false { t.exhausted with capacity := c } rest [] ∨
        (t.used < c ∧ cliClientHandleRequest focus s input =
          .returned true { t.exhausted with capacity := c } rest [])) := by
  intro t
  rcases readSearch_cases h input with ⟨hyes, -⟩ | ⟨-, hread | ⟨code, rest, hcode, hread⟩⟩
  · exact absurd hyes hn
  · exact Or.inl (by rw [cliClientHandleRequest, hread])
  have hstr : strchr 0 newline t.chbuf = none :=
    (strchr_newline _).2 fun hm => hn ((List.takeWhile_prefix _).subset hm)
  refine Or.inr ?_
  rcases request_of_read focus hread (length_filled_le h input) (Nat.zero_lt_of_lt h.room)
    h.bounded with ⟨-, hr⟩ | ⟨-, c, hc, hcm, hr⟩
  · exact ⟨s.capacity, rest, Nat.zero_lt_of_lt h.room, h.bounded, Or.inl hr⟩
  · refine ⟨c, rest, Nat.zero_lt_of_lt hc, hcm, ?_⟩
    rw [hr]
    rcases hcode with rfl | rfl | rfl
    · exact Or.inl rfl
    · refine Or.inl ?_
      show (if strchr 0 newline t.chbuf = none then _ else _) = _
      rw [if_pos hstr]
    · exact Or.inr ⟨hc, rfl⟩

end

end BirRouter
