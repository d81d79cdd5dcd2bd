import LaptopRaft.Framework.Loop
import LaptopRaft.Framework.NumbersAndDots
import LaptopRaft.Wire.Layouts

/-!
# The leader's address

The address of a peer is a string from the command line.  Servers that connect to the peer give it
to `inet_addr` (`ClientSocket::Init`).  A follower that redirects a customer reads it with
`ParseIp`, sends the four numbers, and the customer writes them down again (`GetIp`) and gives the
result to `inet_addr`.

`ParseIp` looks at nothing but the dots.  Here its array is a list of cells that have been written
or not: reading one that has not been written is undefined, and so are a write past the last one
and a `cur_num` that is not an `int`.  `Model/Customer`, where no address is ever looked at, has an
array with arbitrary contents; wherever `ParseIp` is defined it does the same there
(`setLeaderInfo_of_parseIp`).

An address survives if it consists of four parts and each is `Plain` (`address_survives_iff`).
-/

namespace LaptopRaft

/-- What `inet_addr` makes of a string.  `255.255.255.255` is an address like any other, although
the function returns for it what it returns for a string it does not accept. -/
def inetAddr (ip : String) : Option ℕ := readAddress ip.toList

namespace LeaderInfo

/-! ## `ParseIp` -/

/-- `cur_num = cur_num * 10 + (c - '0')`. -/
def nextNum (curNum : ℤ) (c : Char) : Option ℤ :=
  let tens := curNum * 10
  let next := tens + ((c.toNat : ℤ) - 48)
  if IsInt tens ∧ IsInt next then some next else none

/-- The loop of `ParseIp`. -/
def parseCells (ips : List (Option ℤ)) (i : ℕ) (curNum : ℤ) :
    List Char → Option (List (Option ℤ))
  | [] => if i < ips.length then some (ips.set i curNum) else none
  | c :: cs =>
      if c = '.' then
        if i < ips.length then parseCells (ips.set i curNum) (i + 1) 0 cs else none
      else (nextNum curNum c).bind fun n => parseCells ips i n cs

def parseIp (info : LeaderInfo) (ip : String) : Option LeaderInfo :=
  match parseCells [none, none, none, none] 0 0 ip.toList with
  | some [some ip0, some ip1, some ip2, some ip3] =>
      some { info with ip0 := ip0, ip1 := ip1, ip2 := ip2, ip3 := ip3 }
  | _ => none

/-! ### An array with arbitrary contents -/

variable {ips : List ℤ} {cells cells' : List (Option ℤ)} {i : ℕ} {n curNum : ℤ} {cs : List Char}
  {info : LeaderInfo} {ip : String}

/-- The array holds what has been written into the cells. -/
def Holds (ips : List ℤ) (cells : List (Option ℤ)) : Prop :=
  ips.length = cells.length ∧ ∀ (k : ℕ) (v : ℤ), cells[k]? = some (some v) → ips[k]? = some v

lemma Holds.set (h : Holds ips cells) : Holds (ips.set i n) (cells.set i n) := by
  obtain ⟨hlen, hholds⟩ := h
  refine ⟨by rw [List.length_set, List.length_set, hlen], fun k v hk => ?_⟩
  rw [List.getElem?_set] at hk ⊢
  by_cases heq : i = k
  · rw [if_pos heq] at hk ⊢
    rw [hlen]
    simpa using hk
  · rw [if_neg heq] at hk ⊢
    exact hholds k v hk

/-- Where the loop is defined it does the same on an array with arbitrary contents. -/
lemma parseIpFrom_of_parseCells (h : parseCells cells i curNum cs = some cells')
    (hholds : Holds ips cells) :
    ∃ ips', parseIpFrom ips i curNum cs = some ips' ∧ Holds ips' cells' := by
  induction cs generalizing cells ips i curNum with
  | nil =>
      rw [parseCells, Option.ite_none_right_eq_some, Option.some.injEq] at h
      obtain ⟨hlt, rfl⟩ := h
      exact ⟨_, if_pos (hholds.1 ▸ hlt), hholds.set⟩
  | cons c cs ih =>
      rw [parseCells] at h
      rw [parseIpFrom]
      split at h
      · rename_i hdot
        rw [Option.ite_none_right_eq_some] at h
        obtain ⟨hlt, h⟩ := h
        rw [if_pos hdot, if_pos (hholds.1 ▸ hlt)]
        exact ih h hholds.set
      · rename_i hdot
        obtain ⟨n, hn, h⟩ := Option.bind_eq_some_iff.1 h
        rw [nextNum, Option.ite_none_right_eq_some, Option.some.injEq] at hn
        rw [if_neg hdot, hn.2]
        exact ih h hholds

theorem setLeaderInfo_of_parseIp {port : ℤ} {info' : LeaderInfo}
    (h : parseIp { info with port := port } ip = some info') (ips : Fin 4 → ℤ) :
    setLeaderInfo ips ip port = some info' := by
  unfold parseIp at h
  split at h
  · rename_i ip0 ip1 ip2 ip3 hcells
    have hstart : Holds (List.ofFn ips) [none, none, none, none] := by
      refine ⟨by simp, fun k v hk => ?_⟩
      have hmem := List.mem_of_getElem? hk
      simp at hmem
    obtain ⟨ips', hparse, hlen, hholds⟩ := parseIpFrom_of_parseCells hcells hstart
    obtain ⟨a, b, c, d, rfl⟩ := List.length_eq_four.1 hlen
    have h0 := hholds 0 ip0 rfl
    have h1 := hholds 1 ip1 rfl
    have h2 := hholds 2 ip2 rfl
    have h3 := hholds 3 ip3 rfl
    simp only [List.getElem?_cons_zero, List.getElem?_cons_succ, Option.some.injEq] at h0 h1 h2 h3
    rw [setLeaderInfo, hparse, ← h, h0, h1, h2, h3]
  · cases h

/-! ### The parts -/

/-- The number a part is read as. -/
def readPart (cs : List Char) : Option ℤ := cs.foldlM nextNum 0

/-- The numbers are written into one cell after the other. -/
def writeCells (cells : List (Option ℤ)) (i : ℕ) : List ℤ → Option (List (Option ℤ))
  | [] => some cells
  | n :: ns => if i < cells.length then writeCells (cells.set i n) (i + 1) ns else none

/-- The loop reads the parts between the dots. -/
lemma parseCells_eq {p : List Char} {ps : List (List Char)} (hsplit : cs.splitOn '.' = p :: ps) :
    parseCells cells i curNum cs =
      (p.foldlM nextNum curNum).bind fun n => (ps.mapM readPart).bind fun ns =>
        writeCells cells i (n :: ns) := by
  induction cs generalizing cells i curNum p ps with
  | nil =>
      obtain ⟨rfl, rfl⟩ := List.cons.inj (List.splitOn_nil '.' ▸ hsplit)
      rfl
  | cons c cs ih =>
      obtain ⟨q, qs, hqs⟩ := List.exists_cons_of_ne_nil (List.splitOn_ne_nil '.' cs)
      rw [List.splitOn_cons_eq_if_modifyHead, hqs] at hsplit
      rw [parseCells]
      by_cases hdot : c = '.'
      · rw [if_pos (beq_iff_eq.2 hdot)] at hsplit
        obtain ⟨rfl, rfl⟩ := List.cons.inj hsplit
        rw [if_pos hdot, ih hqs]
        simp only [List.foldlM_nil, List.mapM_cons, Option.pure_def, Option.bind_eq_bind,
          Option.bind_some, writeCells, readPart]
        split
        · simp only [Option.bind_assoc, Option.bind_some]
          rfl
        · simp
      · rw [if_neg (by simpa using hdot)] at hsplit
        obtain ⟨rfl, rfl⟩ := List.cons.inj hsplit
        rw [if_neg hdot, List.foldlM_cons, Option.bind_eq_bind, Option.bind_assoc]
        exact congrArg _ (funext fun n => ih hqs)

lemma parseCells_start (cs : List Char) : parseCells [none, none, none, none] 0 0 cs =
    ((cs.splitOn '.').mapM readPart).bind (writeCells [none, none, none, none] 0) := by
  obtain ⟨p, ps, hsplit⟩ := List.exists_cons_of_ne_nil (List.splitOn_ne_nil '.' cs)
  rw [parseCells_eq hsplit, hsplit, List.mapM_cons, Option.bind_eq_bind, Option.bind_assoc]
  refine congrArg _ (funext fun n => ?_)
  rw [Option.bind_eq_bind, Option.bind_assoc]
  rfl

/-- `ParseIp` is defined when there are four parts and each is read as a number. -/
lemma parseIp_eq_some {info' : LeaderInfo} : parseIp info ip = some info' ↔
    ∃ a b c d,
      List.Forall₂ (fun cs n => readPart cs = some n) (ip.toList.splitOn '.') [a, b, c, d] ∧
      info' = { info with ip0 := a, ip1 := b, ip2 := c, ip3 := d } := by
  simp only [← mapM_eq_some_iff, parseIp, parseCells_start]
  cases (ip.toList.splitOn '.').mapM readPart with
  | none => simp
  | some ns =>
      match ns with
      | [] => simp [writeCells]
      | [a] => simp [writeCells]
      | [a, b] => simp [writeCells]
      | [a, b, c] => simp [writeCells]
      | [a, b, c, d] =>
          constructor
          · rintro ⟨⟩
            exact ⟨a, b, c, d, rfl, rfl⟩
          · rintro ⟨_, _, _, _, ⟨⟩, rfl⟩
            rfl
      | a :: b :: c :: d :: e :: ns => simp [writeCells]

/-- Nothing is written past the last cell when `inet_addr` accepts the address: it is only the
numbers that may not be read. -/
theorem writes_inside {ns : List ℤ} (haccepted : (inetAddr ip).isSome)
    (hread : (ip.toList.splitOn '.').mapM readPart = some ns) :
    ∃ cells, parseCells [none, none, none, none] 0 0 ip.toList = some cells := by
  obtain ⟨v, hv⟩ := Option.isSome_iff_exists.1 haccepted
  obtain ⟨ms, hms, hcombine⟩ := Option.bind_eq_some_iff.1 hv
  have hlen : ns.length = ms.length :=
    (mapM_eq_some_iff.1 hread).length_eq.symm.trans (mapM_eq_some_iff.1 hms).length_eq
  have hfour := length_of_combine hcombine
  rw [parseCells_start, hread, Option.bind_some]
  match ns with
  | [] | [a] | [a, b] | [a, b, c] | [a, b, c, d] => exact ⟨_, rfl⟩
  | a :: b :: c :: d :: e :: ns =>
      simp only [List.length_cons] at hlen
      omega

/-! ### One part -/

section Part

variable {k m : ℕ} {c : Char}

lemma nextNum_eq (hc : '0'.toNat ≤ c.toNat) : nextNum k c =
    if 10 * k + (c.toNat - '0'.toNat) < 2 ^ 31 then
      some ((10 * k + (c.toNat - '0'.toNat) : ℕ) : ℤ)
    else none := by
  have hzero : '0'.toNat = 48 := rfl
  rw [hzero] at hc ⊢
  have hnext : (k : ℤ) * 10 + ((c.toNat : ℤ) - 48) = (10 * k + (c.toNat - 48) : ℕ) := by omega
  rw [nextNum, hnext]
  refine if_congr ?_ rfl rfl
  unfold IsInt
  omega

/-- A part that is read is read as decimal digits. -/
lemma ofDigitChars_of_foldlM (hchars : ∀ c ∈ cs, '0'.toNat ≤ c.toNat)
    (h : cs.foldlM nextNum (k : ℤ) = some n) :
    n = (Nat.ofDigitChars 10 cs k : ℕ) ∧ (k < 2 ^ 31 → IsInt n) := by
  induction cs generalizing k with
  | nil =>
      obtain rfl := Option.some.inj h
      rw [Nat.ofDigitChars_nil]
      exact ⟨rfl, fun hk => ⟨by omega, by omega⟩⟩
  | cons c cs ih =>
      rw [List.foldlM_cons, Option.bind_eq_bind, Option.bind_eq_some_iff] at h
      obtain ⟨next, hnext, h⟩ := h
      rw [nextNum_eq (hchars c List.mem_cons_self), Option.ite_none_right_eq_some,
        Option.some.injEq] at hnext
      obtain ⟨hlt, rfl⟩ := hnext
      obtain ⟨heq, hint⟩ := ih (fun c hc => hchars c (List.mem_cons_of_mem _ hc)) h
      rw [Nat.ofDigitChars_cons]
      exact ⟨heq, fun _ => hint hlt⟩

lemma foldlM_nextNum (hchars : ∀ c ∈ cs, '0'.toNat ≤ c.toNat)
    (hlt : Nat.ofDigitChars 10 cs k < 2 ^ 31) :
    cs.foldlM nextNum (k : ℤ) = some ((Nat.ofDigitChars 10 cs k : ℕ) : ℤ) := by
  induction cs generalizing k with
  | nil => rfl
  | cons c cs ih =>
      rw [Nat.ofDigitChars_cons] at hlt ⊢
      have hgrow : Nat.ofDigitChars 10 cs (10 * k + (c.toNat - '0'.toNat)) =
          10 ^ cs.length * (10 * k + (c.toNat - '0'.toNat)) + Nat.ofDigitChars 10 cs 0 :=
        Nat.ofDigitChars_eq_ofDigitChars_zero
      have hpow := Nat.one_le_pow cs.length 10 (by decide)
      have hle := Nat.le_mul_of_pos_left (10 * k + (c.toNat - '0'.toNat)) hpow
      rw [List.foldlM_cons, nextNum_eq (hchars c List.mem_cons_self), if_pos (by omega)]
      exact ih (fun c hc => hchars c (List.mem_cons_of_mem _ hc)) hlt

/-- A number that makes up a byte is read as that byte if it is plain. -/
lemma readPart_iff (hnumber : readNumber cs = some m) (hbyte : m < 2 ^ 8) :
    readPart cs = some (m : ℤ) ↔ Plain cs := by
  have hnum := number_of_readNumber hnumber
  rw [← hnum.ofDigitChars_iff hbyte]
  constructor
  · intro h
    have heq := (ofDigitChars_of_foldlM (k := 0) hnum.zero_le h).1
    exact_mod_cast heq.symm
  · intro heq
    have hread := foldlM_nextNum (k := 0) hnum.zero_le (by omega)
    rw [heq] at hread
    exact hread

end Part

/-! ## The redirect -/

/-- `GetIp` of four natural numbers. -/
lemma getIp_toList (a b c d : ℕ) (port : ℤ) :
    (getIp ⟨a, b, c, d, port⟩).toList = dotted a b c d := by
  have hint : ∀ n : ℕ, (toString (n : ℤ)).toList = Nat.toDigits 10 n := fun n => Nat.toList_repr
  simp only [getIp, String.toList_append, hint, dotted]
  simp [List.intercalate]

/-- The address that a customer gets: `SetLeaderInfo` and `Marshal` into the buffer of the server,
`Unmarshal` and `GetIp` from that of the customer. -/
def redirectIp (server customer : ByteOrder) (buffer : List UInt8) (ip : String) (port : ℤ) :
    Option String := do
  let info ← parseIp { port := port } ip
  let sent ← layout.marshal server info buffer
  let received ← layout.unmarshal customer (sent.take layout.size)
  some received.getIp

/-- No step is undefined, and `inet_addr` reads what comes out as the same address. -/
def AddressSurvives (server customer : ByteOrder) (buffer : List UInt8) (ip : String) (port : ℤ) :
    Prop :=
  ∃ ip', redirectIp server customer buffer ip port = some ip' ∧ inetAddr ip' = inetAddr ip

variable {server customer : ByteOrder} {buffer : List UInt8} {port : ℤ} {parts : List (List Char)}
  {ms : List ℕ}

lemma redirectIp_eq (hparse : parseIp { port := port } ip = some info) (hfits : layout.Fits info)
    (hroom : layout.size ≤ buffer.length) :
    redirectIp server customer buffer ip port = some info.getIp := by
  have hbytes : ((layout.bytes info ++ buffer.drop layout.size).take layout.size) =
      layout.bytes info := List.take_left' (Layout.bytes_length info)
  have hdecode := Layout.decode_bytes hfits []
  rw [List.append_nil] at hdecode
  rw [redirectIp, hparse, Option.bind_eq_bind, Option.bind_some, Layout.marshal_eq hroom,
    Option.bind_eq_bind, Option.bind_some, hbytes,
    Layout.unmarshal_eq (Layout.bytes_length info).ge, hdecode]
  rfl

/-- Parts that make up a byte each. -/
lemma forall₂_readPart_iff (h : List.Forall₂ (fun cs m => readNumber cs = some m) parts ms)
    (hbytes : ∀ m ∈ ms, m < 2 ^ 8) :
    List.Forall₂ (fun cs n => readPart cs = some n) parts (ms.map Nat.cast) ↔
      ∀ cs ∈ parts, Plain cs := by
  induction h with
  | nil => simp
  | @cons cs m parts ms hm _ ih =>
      obtain ⟨hbyte, hbytes⟩ := List.forall_mem_cons.1 hbytes
      rw [List.map_cons, List.forall₂_cons, ih hbytes, readPart_iff hm hbyte, List.forall_mem_cons]

/-- What numbers are read as is not negative. -/
lemma exists_cast_of_readPart {ns : List ℤ}
    (hread : List.Forall₂ (fun cs n => readPart cs = some n) parts ns)
    (hnumbers : List.Forall₂ (fun cs m => readNumber cs = some m) parts ms) :
    (∃ ks : List ℕ, ns = ks.map Nat.cast) ∧ ∀ n ∈ ns, IsInt n := by
  induction hread generalizing ms with
  | nil => exact ⟨⟨[], rfl⟩, by simp⟩
  | @cons cs n parts ns hn _ ih =>
      cases hnumbers with
      | cons hm hms =>
          obtain ⟨⟨ks, rfl⟩, hints⟩ := ih hms
          obtain ⟨hcast, hint⟩ :=
            ofDigitChars_of_foldlM (k := 0) (number_of_readNumber hm).zero_le hn
          exact ⟨⟨_ :: ks, by rw [List.map_cons, ← hcast]⟩,
            List.forall_mem_cons.2 ⟨hint (by decide), hints⟩⟩

/-- Four numbers go through a redirect. -/
lemma redirectIp_of_parts {a b c d : ℕ} (hroom : layout.size ≤ buffer.length)
    (hport : IsInt port)
    (hread : List.Forall₂ (fun cs n => readPart cs = some n) (ip.toList.splitOn '.')
      ([a, b, c, d].map Nat.cast)) (hints : ∀ n ∈ [a, b, c, d].map (Nat.cast : ℕ → ℤ), IsInt n) :
    ∃ ip', redirectIp server customer buffer ip port = some ip' ∧
      inetAddr ip' = combine [a, b, c, d] := by
  have hparse : parseIp { port := port } ip = some ⟨a, b, c, d, port⟩ :=
    parseIp_eq_some.2 ⟨_, _, _, _, hread, rfl⟩
  have hfits : layout.Fits (⟨a, b, c, d, port⟩ : LeaderInfo) := by
    simp only [List.map_cons, List.map_nil, List.forall_mem_cons] at hints
    obtain ⟨ha, hb, hc, hd, -⟩ := hints
    simp [Layout.Fits, layout, ha, hb, hc, hd, hport]
  refine ⟨_, redirectIp_eq hparse hfits hroom, ?_⟩
  rw [inetAddr, getIp_toList, readAddress_dotted]

/-- **When an address survives a redirect**: there are four parts, and each is plain. -/
theorem address_survives_iff (hroom : layout.size ≤ buffer.length) (hport : IsInt port)
    (haccepted : (inetAddr ip).isSome) :
    AddressSurvives server customer buffer ip port ↔
      (ip.toList.splitOn '.').length = 4 ∧ ∀ cs ∈ ip.toList.splitOn '.', Plain cs := by
  obtain ⟨v, hv⟩ := Option.isSome_iff_exists.1 haccepted
  obtain ⟨ms, hms, hcombine⟩ := Option.bind_eq_some_iff.1 hv
  rw [mapM_eq_some_iff] at hms
  have hbytes : ms.length = 4 → ∀ m ∈ ms, m < 2 ^ 8 := by
    intro hlen
    obtain ⟨a, b, c, d, rfl⟩ := List.length_eq_four.1 hlen
    simpa using (combine_four.1 hcombine).1
  constructor
  · rintro ⟨ip', hredirect, hsame⟩
    obtain ⟨info, hparse, -⟩ := Option.bind_eq_some_iff.1 hredirect
    obtain ⟨_, _, _, _, hread, -⟩ := parseIp_eq_some.1 hparse
    have hlen := hread.length_eq
    obtain ⟨⟨ks, hks⟩, hints⟩ := exists_cast_of_readPart hread hms
    have hkslen : ks.length = 4 := by
      have hlen := congrArg List.length hks
      rw [List.length_map] at hlen
      exact hlen.symm
    obtain ⟨a, b, c, d, rfl⟩ := List.length_eq_four.1 hkslen
    rw [hks] at hread hints
    obtain ⟨ip'', hredirect', hcombine'⟩ := redirectIp_of_parts hroom hport hread hints
    obtain rfl := Option.some.inj (hredirect.symm.trans hredirect')
    have hmslen : ms.length = 4 := hms.length_eq.symm.trans hlen
    have hsent : [a, b, c, d] = ms := by
      obtain ⟨_, _, _, _, rfl⟩ := List.length_eq_four.1 hmslen
      exact combine_four_inj (hcombine'.symm.trans (hsame.trans hv)) hcombine
    rw [hsent] at hread
    exact ⟨hlen, (forall₂_readPart_iff hms (hbytes hmslen)).1 hread⟩
  · rintro ⟨hlen, hplain⟩
    have hmslen : ms.length = 4 := hms.length_eq.symm.trans hlen
    have hread := (forall₂_readPart_iff hms (hbytes hmslen)).2 hplain
    obtain ⟨a, b, c, d, rfl⟩ := List.length_eq_four.1 hmslen
    obtain ⟨ip', hredirect, hcombine'⟩ :=
      redirectIp_of_parts hroom hport hread (exists_cast_of_readPart hread hms).2
    exact ⟨ip', hredirect, hcombine'.trans (hcombine.trans hv.symm)⟩

/-- An octal digit behind a zero is the same in decimal. -/
theorem address_survives_octal :
    AddressSurvives .little .big (List.replicate 20 0) "192.168.0.07" 9000 :=
  (address_survives_iff (by decide) (by decide) (by decide)).2 (by decide)

/-- `8.0.0.1`, written with an octal number, becomes `10.0.0.1`.  Of `127.0.0.1`, written with two
numbers, `ParseIp` reads two that have never been written. -/
theorem address_lost : inetAddr "010.0.0.1" = some (8 * 2 ^ 24 + 1) ∧
    ¬ AddressSurvives .little .little (List.replicate 20 0) "010.0.0.1" 9000 ∧
    inetAddr "127.1" = some (127 * 2 ^ 24 + 1) ∧
    ¬ AddressSurvives .little .little (List.replicate 20 0) "127.1" 9000 := by
  refine ⟨by decide, ?_, by decide, ?_⟩
  · rintro ⟨ip', hredirect, hsame⟩
    have hread : redirectIp .little .little (List.replicate 20 0) "010.0.0.1" 9000 =
        some "10.0.0.1" := by decide
    obtain rfl := Option.some.inj (hread.symm.trans hredirect)
    exact absurd hsame (by decide)
  · rintro ⟨ip', hredirect, -⟩
    have hundefined : redirectIp .little .little (List.replicate 20 0) "127.1" 9000 = none := by
      decide
    cases hundefined.symm.trans hredirect

end LeaderInfo

end LaptopRaft
