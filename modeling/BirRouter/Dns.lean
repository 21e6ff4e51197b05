import BirRouter.Cli
import BirRouter.Lib.CString
import BirRouter.Lib.Layout

/-!
# The DNS database

The commands `dns add` and `dns del`, from the scanner to the database, and the file the database
is kept in: written by `dns_save_changes`, read by `populate_database`.

Where the code would write behind an array, use a variable that was never set or a pointer that is
NULL, the functions here have no result.
-/

set_option autoImplicit false

namespace BirRouter

open ByteLayout CString

def space : Byte := 32

def dot : Byte := 46

/-- A label is a string; `count` is the length of `names`. -/
structure DnsDbEntry where
  names : List (List Byte)
  type : BitVec 16
  class_ : BitVec 16
  rdata : BitVec 32
  deriving DecidableEq, Repr

/-! ## Scanning -/

def maxStrLen : Nat := 32

/-- `copy_yytext`: the text goes to the front of `yylval`, and no NUL is put behind it.  `yylval`
stands for the value and all the memory behind it, up to a NUL at its end. -/
def copyYytext (text yylval : List Byte) : Option (List Byte) :=
  if text.length > maxStrLen then none else some (text ++ yylval.drop text.length)

def isLetter (b : Byte) : Bool := (65 ≤ b && b ≤ 90) || (97 ≤ b && b ≤ 122)

/-- The texts of the tokens `NAME` and, without its quotes, `STRING`. -/
def ScannerText (text : List Byte) : Prop :=
  (∃ b l, text = b :: l ∧ isLetter b = true ∧ ∀ c ∈ l, (isLetter c || c = 95 || isdigit c) = true) ∨
    ∀ b ∈ text, b ≠ 34 ∧ b ≠ newline ∧ b ≠ 0

/-- The arguments of a command.  They are scanned one after another into the same `yylval`, so the
name is copied over the class; `stale` is what follows the class there. -/
structure DnsArguments where
  ip : BitVec 32
  type : BitVec 32
  class_ : BitVec 32
  text : List Byte
  stale : List Byte

/-- `gross_dns_t`, with the memory that `hostname` points to. -/
structure GrossDns where
  ip : BitVec 32
  hostname : List Byte
  type : BitVec 32
  class_ : BitVec 32

def DnsArguments.scan (a : DnsArguments) : Option GrossDns :=
  (copyYytext a.text (u32le.enc a.class_ ++ a.stale)).map fun hostname =>
    { ip := a.ip, hostname := hostname, type := a.type, class_ := a.class_ }

/-! ## Commands -/

/-- A further label.  `count` has eight bits: the label that makes it wrap is the last of an array
that counts as empty. -/
def addLabel (names : List (List Byte)) (sub : List Byte) : List (List Byte) :=
  let names := names ++ [sub.takeWhile (· ≠ 0)]
  if names.length = 256 then [] else names

/-- The loop over the bytes of the name, with those since `start` in `cur`; TRUE is the exception. -/
def convertNames : List Byte → List (List Byte) → List Byte → List (List Byte) × Bool
  | _, names, [] => (names, false)
  | cur, names, b :: l =>
    let lastchar := l = []
    let charisdot := b = dot
    if charisdot ∧ lastchar then (names, true)
    else if charisdot ∨ lastchar then
      if cur = [] ∧ ¬ lastchar then (names, true)
      else convertNames [] (addLabel names (if lastchar then cur ++ [b] else cur)) l
    else convertNames (cur ++ [b]) names l

/-- `dns_convert_groos_dns_to_db_entry`.  The loop looks at the first byte also if it is NUL. -/
def dnsConvertGroosDnsToDbEntry (data : GrossDns) : DnsDbEntry × Bool :=
  let name := data.hostname.take 1 ++ (data.hostname.drop 1).takeWhile (· ≠ 0)
  let (names, exception) := convertNames [] [] name
  ({ names := names
     type := data.type.setWidth 16
     class_ := data.class_.setWidth 16
     rdata := data.ip }, exception)

/-- `cli_manip_dns_add`, without the file. -/
def cliManipDnsAdd (data : GrossDns) (db : List DnsDbEntry) : List DnsDbEntry :=
  let (db_entry, exception) := dnsConvertGroosDnsToDbEntry data
  if exception then db else db ++ [db_entry]

/-- `cli_manip_dns_del`, without the file.  It does not look at the exception. -/
def cliManipDnsDel (data : GrossDns) (db : List DnsDbEntry) : List DnsDbEntry :=
  db.erase (dnsConvertGroosDnsToDbEntry data).1

inductive DnsCommand
  | add (a : DnsArguments)
  | del (a : DnsArguments)

/-- One command whose name the scanner accepts. -/
inductive DnsStep : List DnsDbEntry → DnsCommand → List DnsDbEntry → Prop
  | add {db : List DnsDbEntry} {a : DnsArguments} {data : GrossDns} :
      ScannerText a.text → a.scan = some data → DnsStep db (.add a) (cliManipDnsAdd data db)
  | del {db : List DnsDbEntry} {a : DnsArguments} {data : GrossDns} :
      ScannerText a.text → a.scan = some data → DnsStep db (.del a) (cliManipDnsDel data db)

/-! ## The file -/

/-- `concat_names` -/
def concatNames (names : List (List Byte)) : Option (List Byte) :=
  let name := [dot].intercalate names
  if name.length < 256 then some name else none

/-- `quick_ip_to_string` -/
def ipToString (ip : BitVec 32) : List Byte :=
  [dot].intercalate ((u32le.enc ip).map fun b => decimal b.toNat)

/-- The line `"%s %d %d %s\n"` of an entry. -/
def DnsDbEntry.line (e : DnsDbEntry) (name : List Byte) : List Byte :=
  [space].intercalate
    [name, decimal e.type.toNat, decimal e.class_.toNat, ipToString e.rdata ++ [newline]]

/-- `dns_save_changes`: the contents of the file. -/
def dnsSaveChanges (db : List DnsDbEntry) : Option (List Byte) :=
  (db.mapM fun e => (concatNames e.names).map e.line).map List.flatten

/-- `IP_CONVERT`, of any four numbers. -/
def ipConvertInt (a b c d : Int) : BitVec 32 :=
  BitVec.ofInt 32 a ||| BitVec.ofInt 32 b <<< 8 ||| BitVec.ofInt 32 c <<< 16 |||
    BitVec.ofInt 32 d <<< 24

/-- The labels of a domain name.  There is to be one more than dots; `strtok_r` gives fewer if two
dots are adjacent, and the other slots are not set. -/
def loadNames (domain : List Byte) : Option (List (List Byte)) :=
  let labels := tokens dot domain
  let count := (domain.count dot + 1) % 256
  if labels.length < count then none else some (labels.take count)

/-- The address at the end of a line; all four elements of `ip` have to be set. -/
def loadAddress (data : List Byte) : Option (BitVec 32) :=
  if data.contains newline then
    let ip := (tokens dot (data.takeWhile (· ≠ newline))).map atoi
    if ip.length < 4 then none
    else some (ipConvertInt (ip.getD 0 0) (ip.getD 1 0) (ip.getD 2 0) (ip.getD 3 0))
  else none

def loadEntry (line : List Byte) : Option DnsDbEntry :=
  match tokens space (line.takeWhile (· ≠ 0)) with
  | domain :: type :: class_ :: data :: _ =>
    (loadNames domain).bind fun names => (loadAddress data).map fun rdata =>
      { names := names
        type := BitVec.ofInt 16 (atoi type)
        class_ := BitVec.ofInt 16 (atoi class_)
        rdata := rdata }
  | _ => none

/-- `populate_database`, for a file that can be opened and a database that is empty. -/
def populateDatabase (file : List Byte) : Option (List DnsDbEntry) :=
  let lines := fgets 255 newline [] file
  if 256 < lines.length then none else lines.mapM loadEntry

end BirRouter
