import BirRouter.Dns
import BirRouter.Packets

/-!
# Values of tokens (`cli_scanner.lex`)

All tokens with a value store it in the same union, `yylval`, from its first byte on: integers,
addresses and strings over each other.  `copy_yytext` puts no NUL behind a string, so that what the
string is read as depends on what earlier tokens have left there.

* `yylvalAfter` — the union after any tokens, and `yylvalAfter_getElem?` — its bytes;
* `stringToken_iff` — a string is read as it was written exactly if the byte behind it is NUL by
  chance.
-/

set_option autoImplicit false

namespace BirRouter

open ByteLayout CString

/-! ## Tokens -/

/-- The tokens that are stored.  A string that is too long is not; nor are addresses that cannot be
converted, which are left out here. -/
inductive ValueToken
  | int (intVal : BitVec 32)
  | ip (ip : AddrIp)
  | mac (mac : AddrMac)
  | string (text : List Byte)

/-- What it writes to the front of the union. -/
def ValueToken.bytes : ValueToken → List Byte
  | .int v => u32le.enc v
  | .ip v => u32le.enc v
  | .mac v => AddrMac.layout.enc v
  | .string text => if text.length > maxStrLen then [] else text

def ValueToken.store (yylval : List Byte) (t : ValueToken) : List Byte :=
  t.bytes ++ yylval.drop t.bytes.length

/-- `YYSTYPE` is as big as its largest member; `yylval` is static. -/
def yylvalInit : List Byte := List.replicate maxStrLen 0

def yylvalAfter (history : List ValueToken) : List Byte := history.foldl ValueToken.store yylvalInit

/-- A name, or a string in quotes. -/
inductive StringLexeme
  | name (text : List Byte)
  | quoted (text : List Byte)

/-- Without the quotes. -/
def StringLexeme.text : StringLexeme → List Byte
  | .name text => text
  | .quoted text => text

def StringLexeme.isQuoted : StringLexeme → Bool
  | .name _ => false
  | .quoted _ => true

def StringLexeme.yytext : StringLexeme → List Byte
  | .name text => text
  | .quoted text => 34 :: text ++ [34]

/-- `copy_yytext`, with the quotes; `none` is the error. -/
def copyYytextOf (quoted : Bool) (yytext yylval : List Byte) : Option (List Byte) :=
  let len := yytext.length - if quoted then 2 else 0
  if len > maxStrLen then none
  else
    let start := if quoted then 1 else 0
    some ((yytext.drop start).take len ++ yylval.drop len)

theorem copyYytextOf_eq (lexeme : StringLexeme) (yylval : List Byte) :
    copyYytextOf lexeme.isQuoted lexeme.yytext yylval = copyYytext lexeme.text yylval := by
  cases lexeme with
  | name text => simp [copyYytextOf, copyYytext, StringLexeme.isQuoted, StringLexeme.yytext,
      StringLexeme.text]
  | quoted text => simp [copyYytextOf, copyYytext, StringLexeme.isQuoted, StringLexeme.yytext,
      StringLexeme.text]

/-- What the scanner's patterns match. -/
def StringLexeme.Matched : StringLexeme → Prop
  | .name text => ∃ b l, text = b :: l ∧ isLetter b = true ∧
    ∀ c ∈ l, (isLetter c || c = 95 || isdigit c) = true
  | .quoted text => ∀ b ∈ text, b ≠ 34 ∧ b ≠ newline ∧ b ≠ 0

theorem StringLexeme.Matched.nul {lexeme : StringLexeme} (h : lexeme.Matched) :
    0 ∉ lexeme.text := by
  cases lexeme with
  | name text =>
    obtain ⟨b, l, rfl, hb, hl⟩ := h
    intro h0
    rcases List.mem_cons.1 h0 with rfl | h0
    · exact absurd hb (by decide)
    · exact absurd (hl 0 h0) (by decide)
  | quoted text => exact fun h0 => (h 0 h0).2.2 rfl

/-! ## The union -/

theorem ValueToken.length_bytes_le (t : ValueToken) : t.bytes.length ≤ maxStrLen := by
  cases t with
  | int v => exact (u32le.enc_length v).le.trans (by decide)
  | ip v => exact (u32le.enc_length v).le.trans (by decide)
  | mac v => exact (AddrMac.layout.enc_length v).le.trans (by decide)
  | string text =>
    rw [bytes]
    split
    · exact Nat.zero_le _
    · omega

theorem ValueToken.length_store {yylval : List Byte} (h : yylval.length = maxStrLen)
    (t : ValueToken) : (store yylval t).length = maxStrLen := by
  have hle := t.length_bytes_le
  rw [store, List.length_append, List.length_drop, h]
  omega

theorem length_yylvalAfter (history : List ValueToken) :
    (yylvalAfter history).length = maxStrLen := by
  induction history using List.reverseRecOn with
  | nil => exact List.length_replicate
  | append_singleton history t ih =>
    rw [yylvalAfter, List.foldl_append]
    exact ValueToken.length_store ih t

/-- The byte that was written to position `k` last. -/
def staleByte (history : List ValueToken) (k : Nat) : Byte :=
  (history.filterMap fun t => t.bytes[k]?).getLast?.getD 0

theorem staleByte_concat (history : List ValueToken) (t : ValueToken) (k : Nat) :
    staleByte (history ++ [t]) k = t.bytes[k]?.getD (staleByte history k) := by
  rw [staleByte, List.filterMap_append]
  cases ht : t.bytes[k]? with
  | none => simp [ht, staleByte]
  | some b => simp [ht]

theorem yylvalAfter_getElem? (history : List ValueToken) {k : Nat} (hk : k < maxStrLen) :
    (yylvalAfter history)[k]? = some (staleByte history k) := by
  induction history using List.reverseRecOn with
  | nil => exact List.getElem?_replicate_of_lt hk
  | append_singleton history t ih =>
    have hstep : yylvalAfter (history ++ [t]) = ValueToken.store (yylvalAfter history) t := by
      rw [yylvalAfter, List.foldl_append]
      rfl
    rw [hstep, ValueToken.store, staleByte_concat]
    by_cases ht : k < t.bytes.length
    · rw [List.getElem?_append_left ht, List.getElem?_eq_getElem ht]
      rfl
    · rw [List.getElem?_append_right (by omega), List.getElem?_drop,
        Nat.add_sub_cancel' (by omega), ih, List.getElem?_eq_none (by omega)]
      rfl

/-! ## Strings -/

theorem takeWhile_append_eq_self_iff {text rest : List Byte} {next : Byte} (hnul : 0 ∉ text) :
    (text ++ next :: rest).takeWhile (· ≠ 0) = text ↔ next = 0 := by
  have htext : ∀ b ∈ text, decide (b ≠ 0) = true := fun b hb => by
    have hne : b ≠ 0 := fun h0 => hnul (h0 ▸ hb)
    simpa using hne
  rw [List.takeWhile_append_of_pos htext]
  by_cases hnext : next = 0
  · simp [hnext]
  · rw [List.takeWhile_cons_of_pos (by simpa using hnext)]
    exact iff_of_false (by simp) hnext

/-- **What a string token is read as.**  After any tokens, let the union hold a name or quoted string
that `copy_yytext` has accepted, and let the byte `next` and others stand behind the copy of it that
the parser makes.  The string that begins there is the lexeme without its quotes exactly if the byte
behind it is NUL: the one that earlier tokens have left there if the lexeme is shorter than the union,
and `next` if it fills it. -/
theorem stringToken_iff {lexeme : StringLexeme} (hlexeme : lexeme.Matched)
    (history : List ValueToken) {value : List Byte}
    (hcopy : copyYytextOf lexeme.isQuoted lexeme.yytext (yylvalAfter history) = some value)
    (next : Byte) (behind : List Byte) :
    (value ++ next :: behind).takeWhile (· ≠ 0) = lexeme.text ↔
      (if lexeme.text.length < maxStrLen then staleByte history lexeme.text.length else next) = 0 := by
  have hnul : 0 ∉ lexeme.text := hlexeme.nul
  rw [copyYytextOf_eq, copyYytext] at hcopy
  split at hcopy
  · cases hcopy
  rename_i hlen
  cases hcopy
  have hlength := length_yylvalAfter history
  by_cases hlt : lexeme.text.length < maxStrLen
  · have hk : lexeme.text.length < (yylvalAfter history).length := hlength ▸ hlt
    have hbyte := yylvalAfter_getElem? history hlt
    rw [List.getElem?_eq_getElem hk, Option.some_inj] at hbyte
    rw [if_pos hlt, List.drop_eq_getElem_cons hk, List.append_assoc, List.cons_append, hbyte]
    exact takeWhile_append_eq_self_iff hnul
  · rw [if_neg hlt, List.drop_eq_nil_of_le (by omega), List.append_nil]
    exact takeWhile_append_eq_self_iff hnul

/-- The first string after the start is read as it was written. -/
theorem stringToken_first : copyYytextOf false [101, 116, 104, 48] (yylvalAfter []) =
      some ([101, 116, 104, 48] ++ List.replicate 28 0) ∧
    (([101, 116, 104, 48] ++ List.replicate 28 0) ++ [1]).takeWhile (· ≠ (0 : Byte)) =
      [101, 116, 104, 48] := by
  have hmatched : (StringLexeme.name [101, 116, 104, 48]).Matched :=
    ⟨101, [116, 104, 48], rfl, by decide, by decide⟩
  have hcopy : copyYytextOf false [101, 116, 104, 48] (yylvalAfter []) =
      some ([101, 116, 104, 48] ++ List.replicate 28 0) := by decide
  exact ⟨hcopy, (stringToken_iff hmatched [] hcopy 1 []).2 (by decide)⟩

/-- After `eth10`, the name `eth1` is read as `eth10`. -/
theorem stringToken_stale : ∃ value,
    copyYytextOf false [101, 116, 104, 49]
      (yylvalAfter [.string [101, 116, 104, 49, 48]]) = some value ∧
    (value ++ [0]).takeWhile (· ≠ 0) = [101, 116, 104, 49, 48] := by
  exact ⟨_, rfl, by decide⟩

end BirRouter
