import Miroir.Data.Records
import Miroir.Data.Text
import Miroir.Drbd.Minor

/-!
# The rendered config and the minors in it

`Render` writes the `.res` file of a resource, and `minorsInRes` finds the minors in one by the
first and the last words of every line. The volume's name stands unquoted in a comment and the
addresses stand unquoted in their lines, but each behind a word that is not `device`.

`minorsInRes_render`: every peer's device line is found, with the minor of the resource, and nothing
else is taken for one; so a lost `minor.assign` is recovered from the file. The text does not depend
on the order of the peers.
-/

namespace Miroir.Drbd

open Texts Records

/-- Everything that is rendered. -/
structure RenderInput extends Input where
  port : Int
  quorum : QuorumPolicy
  localDisk : String
  secret : String := ""
  discardGranularityBytes : Int := 0
  clientDiscardGranularityBytes : Int := 0

def peerDiskPlaceholder : String := "/dev/drbd/this/is/not/used"

/-- `slices.SortFunc` by node id. -/
def sortPeers (peers : List Peer) : List Peer :=
  peers.insertionSort fun a b => a.nodeID ≤ b.nodeID

/-- The lines of `writeDiskOption`. -/
def diskOption (name : String) (value : Int) : List Text :=
  if value ≤ 0 then []
  else ["            disk \x7b".toList,
    ("                " ++ name ++ " ").toList ++ (formatInt value ++ [';']),
    "            \x7d".toList]

section
variable (isPrint : Char → Bool) (isIPv6 : String → Bool) (r : RenderInput)

/-- The lines before the peers. -/
def headLines : List Text :=
  ["# generated by miroir — do not edit (source: MiroirVolume ".toList ++ (r.name.toList ++ [')']),
    "resource ".toList ++ (quote isPrint r.name.toList ++ " \x7b".toList),
    "    options \x7b".toList,
    "        auto-promote yes;".toList] ++
  (match r.quorum with
    | .freeze => ["        quorum majority;".toList, "        on-no-quorum io-error;".toList]
    | .lastManStanding => ["        quorum off;".toList]) ++
  ["    \x7d".toList,
    "    net \x7b".toList,
    "        protocol C;".toList] ++
  (if r.secret ≠ "" then
    ["        cram-hmac-alg sha1;".toList,
      "        shared-secret ".toList ++ (quote isPrint r.secret.toList ++ [';'])]
  else []) ++
  ["        after-sb-0pri disconnect;".toList,
    "        after-sb-1pri disconnect;".toList,
    "        after-sb-2pri disconnect;".toList,
    "    \x7d".toList]

/-- The lines of a peer up to its device. -/
def addressLines (p : Peer) : List Text :=
  ["    on ".toList ++ (quote isPrint p.node.toList ++ " \x7b".toList),
    "        node-id ".toList ++ (formatInt p.nodeID ++ [';']),
    "        address ".toList ++
      ((if isIPv6 p.address then "ipv6 [".toList ++ p.address.toList ++ [']', ':']
        else "ipv4 ".toList ++ p.address.toList ++ [':']) ++ formatInt r.port ++ [';']),
    "        volume 0 \x7b".toList]

def deviceLine : Text := "            device minor ".toList ++ (formatInt r.minor ++ [';'])

def diskLines (p : Peer) : List Text :=
  if p.diskless then
    "            disk none;".toList ::
      ((if p.client then ["            tiebreaker no;".toList] else []) ++
      if p.node = r.localNode then diskOption "discard-granularity" r.clientDiscardGranularityBytes
      else [])
  else
    let disk := if p.node = r.localNode then r.localDisk else peerDiskPlaceholder
    ("            disk ".toList ++ (quote isPrint disk.toList ++ [';'])) ::
      "            meta-disk internal;".toList ::
      if p.node = r.localNode then diskOption "rs-discard-granularity" r.discardGranularityBytes
      else []

def peerLines (p : Peer) : List Text :=
  addressLines isPrint isIPv6 r p ++ deviceLine r :: diskLines isPrint r p ++
    ["        \x7d".toList, "    \x7d".toList]

def meshLines (peers : List Peer) : List Text :=
  ["    connection-mesh \x7b".toList,
    "        hosts ".toList ++
      ([' '].intercalate (peers.map fun p => quote isPrint p.node.toList) ++ [';']),
    "    \x7d".toList,
    "\x7d".toList]

def renderLines : List Text :=
  let peers := sortPeers r.peers
  headLines isPrint r ++ peers.flatMap (peerLines isPrint isIPv6 r) ++ meshLines isPrint peers

/-- `Render`; which characters are printable and which addresses are IPv6 is left to the libraries
that tell. -/
def render : Text := (renderLines isPrint isIPv6 r).flatMap (· ++ ['\n'])

end

/-! ## Reading it back -/

/-- The `int32` of a number. -/
def int32 (n : Int) : Int := (n + 2 ^ 31) % 2 ^ 32 - 2 ^ 31

/-- `strings.TrimSuffix` of a semicolon. -/
def trimSemicolon (s : Text) : Text := if s.getLast? = some ';' then s.dropLast else s

/-- The minor of a device line. -/
def minorInLine (line : Text) : Option Int :=
  let f := fields line
  if 3 ≤ f.length ∧ f.head? = some "device".toList ∧ f[f.length - 2]? = some "minor".toList then
    (parseInt 64 (trimSemicolon (f.getLastD []))).map int32
  else none

def minorsInRes (raw : Text) : List Int := (raw.splitOn '\n').filterMap minorInLine

def minorFromOwnRes (raw : Text) : Option Int := (minorsInRes raw).head?

/-- A line that is one, and that is not taken for a device. -/
def Inert (l : Text) : Prop := '\n' ∉ l ∧ minorInLine l = none

instance : DecidablePred Inert := fun _ => inferInstanceAs (Decidable (_ ∧ _))

/-- Words with a blank behind them, of which the first is not `device`. -/
def leads (p : Text) : Bool :=
  p.getLast? = some ' ' && '\n' ∉ p && (fields p).head?.any (· ≠ "device".toList)

theorem inert_append {p s : Text} (hp : leads p) (hs : '\n' ∉ s) : Inert (p ++ s) := by
  simp only [leads, Bool.and_eq_true, decide_eq_true_eq, Option.any_eq_true] at hp
  obtain ⟨⟨hlast, hp⟩, w, hw, hne⟩ := hp
  have hhead : (fields (p ++ s)).head? = some w := by
    rw [fields_append hlast, List.head?_append, hw, Option.some_or]
  refine ⟨List.not_mem_append hp hs, if_neg ?_⟩
  rintro ⟨-, h, -⟩
  exact hne (Option.some.inj (hhead.symm.trans h))

theorem newline_not_mem_deviceLine (r : RenderInput) : '\n' ∉ deviceLine r := by
  exact List.not_mem_append (by decide)
    (List.not_mem_append (newline_not_mem_formatInt _) (by decide))

theorem formatInt_natCast (n : Nat) : formatInt n = Nat.toDigits 10 n := by
  simp [formatInt]

theorem minorInLine_deviceLine {r : RenderInput} (hr : r.minor < 2 ^ 31) :
    minorInLine (deviceLine r) = some (r.minor : Int) := by
  have hword : fields (formatInt r.minor ++ [';']) = [formatInt r.minor ++ [';']] := by
    refine fields_of_no_space (by simp) fun c hc => ?_
    rw [formatInt_natCast, List.mem_append, List.mem_singleton] at hc
    rcases hc with hc | rfl
    · exact isSpace_of_isDigit (isDigit_of_mem_toDigits hc)
    · decide
  have hfields : fields (deviceLine r) =
      ["device".toList, "minor".toList, formatInt r.minor ++ [';']] := by
    have hhead : fields "            device minor ".toList = ["device".toList, "minor".toList] := by
      decide +kernel
    have hlast : "            device minor ".toList.getLast? = some ' ' := by decide +kernel
    refine (fields_append hlast _).trans ?_
    rw [hword, hhead]
    exact List.cons_append
  have hparse : parseInt 64 (Nat.toDigits 10 r.minor) = some (r.minor : Int) :=
    parseInt_toDigits (hr.trans (Nat.pow_lt_pow_right (by decide) (by decide)))
  have hint : int32 r.minor = r.minor := by
    unfold int32
    omega
  have hlast : trimSemicolon (formatInt r.minor ++ [';']) = Nat.toDigits 10 r.minor := by
    simp [trimSemicolon, formatInt_natCast]
  rw [minorInLine, hfields, if_pos ⟨le_rfl, rfl, rfl⟩]
  change (parseInt 64 (trimSemicolon (formatInt r.minor ++ [';']))).map int32 = _
  rw [hlast, hparse, Option.map_some, hint]

theorem inert_diskOption {name : String} (hn : leads ("                " ++ name ++ " ").toList)
    (value : Int) : ∀ l ∈ diskOption name value, Inert l := by
  unfold diskOption
  split_ifs
  · simp
  · simp only [List.forall_mem_cons]
    refine ⟨by decide, inert_append hn ?_, by decide, by simp⟩
    simp [newline_not_mem_formatInt]

section
variable {isPrint : Char → Bool} {isIPv6 : String → Bool} {r : RenderInput}

theorem inert_headLines (hn : '\n' ∉ r.name.toList) : ∀ l ∈ headLines isPrint r, Inert l := by
  have hquorum : ∀ l ∈ (match r.quorum with
      | .freeze => ["        quorum majority;".toList, "        on-no-quorum io-error;".toList]
      | .lastManStanding => ["        quorum off;".toList]), Inert l := by
    cases r.quorum <;> decide
  have hsecret : ∀ l ∈ (if r.secret ≠ "" then
      ["        cram-hmac-alg sha1;".toList,
        "        shared-secret ".toList ++ (quote isPrint r.secret.toList ++ [';'])]
      else []), Inert l := by
    split_ifs
    · simp only [List.forall_mem_cons]
      refine ⟨by decide, inert_append (by decide) ?_, by simp⟩
      simp [newline_not_mem_quote]
    · simp
  simp only [headLines, List.forall_mem_append, List.forall_mem_cons]
  refine ⟨⟨⟨⟨⟨inert_append (by decide) ?_, inert_append (by decide) ?_, by decide, by decide,
    by simp⟩, hquorum⟩, by decide, by decide, by decide, by simp⟩, hsecret⟩, by decide, by decide,
    by decide, by decide, by simp⟩
  · simp [hn]
  · simp [newline_not_mem_quote]

theorem inert_addressLines {p : Peer} (ha : '\n' ∉ p.address.toList) :
    ∀ l ∈ addressLines isPrint isIPv6 r p, Inert l := by
  simp only [addressLines, List.forall_mem_cons]
  refine ⟨inert_append (by decide) ?_, inert_append (by decide) ?_, inert_append (by decide) ?_,
    by decide, by simp⟩
  · simp [newline_not_mem_quote]
  · simp [newline_not_mem_formatInt]
  · split_ifs <;> simp [ha, newline_not_mem_formatInt]

theorem inert_diskLines {p : Peer} : ∀ l ∈ diskLines isPrint r p, Inert l := by
  unfold diskLines
  split
  · refine List.forall_mem_cons.mpr ⟨by decide, List.forall_mem_append.mpr ⟨?_, ?_⟩⟩
    · split_ifs <;> decide
    · split_ifs
      exacts [inert_diskOption (by decide) _, by simp]
  · refine List.forall_mem_cons.mpr ⟨inert_append (by decide) ?_,
      List.forall_mem_cons.mpr ⟨by decide, ?_⟩⟩
    · simp [newline_not_mem_quote]
    · split_ifs
      exacts [inert_diskOption (by decide) _, by simp]

theorem newline_not_mem_hosts (peers : List Peer) :
    '\n' ∉ [' '].intercalate (peers.map fun p => quote isPrint p.node.toList) := by
  induction peers with
  | nil => simp
  | cons p peers ih =>
    cases peers with
    | nil => simp [newline_not_mem_quote]
    | cons q peers => simpa [List.intercalate, newline_not_mem_quote] using ih

theorem inert_meshLines (peers : List Peer) : ∀ l ∈ meshLines isPrint peers, Inert l := by
  simp only [meshLines, List.forall_mem_cons]
  refine ⟨by decide, inert_append (by decide) ?_, by decide, by decide, by simp⟩
  exact List.not_mem_append (newline_not_mem_hosts peers) (by decide)

/-- The lines are lines, and the minors found in them are `ms`. -/
def Marks (ls : List Text) (ms : List Int) : Prop :=
  (∀ l ∈ ls, '\n' ∉ l) ∧ ls.filterMap minorInLine = ms

theorem marks_of_inert {ls : List Text} (h : ∀ l ∈ ls, Inert l) : Marks ls [] :=
  ⟨fun l hl => (h l hl).1, List.filterMap_eq_nil_iff.mpr fun l hl => (h l hl).2⟩

theorem Marks.append {ls ls' : List Text} {ms ms' : List Int} (h : Marks ls ms)
    (h' : Marks ls' ms') : Marks (ls ++ ls') (ms ++ ms') :=
  ⟨List.forall_mem_append.mpr ⟨h.1, h'.1⟩, by rw [List.filterMap_append, h.2, h'.2]⟩

theorem marks_peerLines {p : Peer} (hr : r.minor < 2 ^ 31) (ha : '\n' ∉ p.address.toList) :
    Marks (peerLines isPrint isIPv6 r p) [(r.minor : Int)] := by
  have hdevice : Marks [deviceLine r] [(r.minor : Int)] :=
    ⟨by simpa using newline_not_mem_deviceLine r, by simp [minorInLine_deviceLine hr]⟩
  have hclose : ∀ l ∈ ["        \x7d".toList, "    \x7d".toList], Inert l := by decide
  exact ((marks_of_inert (inert_addressLines ha)).append
    (hdevice.append (marks_of_inert inert_diskLines))).append (marks_of_inert hclose)

theorem marks_peers (hr : r.minor < 2 ^ 31) {peers : List Peer}
    (ha : ∀ p ∈ peers, '\n' ∉ p.address.toList) :
    Marks (peers.flatMap (peerLines isPrint isIPv6 r))
      (List.replicate peers.length (r.minor : Int)) := by
  induction peers with
  | nil => exact ⟨by simp, rfl⟩
  | cons p peers ih =>
    rw [List.forall_mem_cons] at ha
    exact (marks_peerLines hr ha.1).append (ih ha.2)

end

theorem sortPeers_eq_of_perm {peers peers' : List Peer} (h : peers'.Perm peers)
    (hid : (peers.map Peer.nodeID).Nodup) : sortPeers peers' = sortPeers peers := by
  have hperm : (sortPeers peers').Perm (sortPeers peers) :=
    (List.perm_insertionSort ..).trans (h.trans (List.perm_insertionSort ..).symm)
  have hsorted (peers : List Peer) : (sortPeers peers).Pairwise fun a b => a.nodeID ≤ b.nodeID :=
    List.pairwise_insertionSort ..
  refine hperm.eq_of_pairwise (fun a b ha hb hab hba => ?_) (hsorted _) (hsorted _)
  have ha := h.subset ((List.mem_insertionSort _).mp ha)
  have hb := (List.mem_insertionSort _).mp hb
  exact List.inj_on_of_nodup_map hid ha hb (le_antisymm hab hba)

/-- The node whose state directory holds only this file. -/
def onlyRes (name : String) (raw : Text) : Node where
  configs := ((minorFromOwnRes raw).map fun m => AList.insert name m.toNat ∅).getD ∅

/-- For every resource with a name and addresses without a newline, and whatever the libraries print
and parse: each peer has its device line with the minor and no other line is taken for one, a node
that has lost `minor.assign` allocates the minor again, and the order of the peers does not
matter. -/
theorem minorsInRes_render (isPrint : Char → Bool) (isIPv6 : String → Bool) (r : RenderInput)
    (hr : r.minor < 2 ^ 31) (hn : '\n' ∉ r.name.toList)
    (ha : ∀ p ∈ r.peers, '\n' ∉ p.address.toList) :
    minorsInRes (render isPrint isIPv6 r) = List.replicate r.peers.length (r.minor : Int) ∧
    (r.peers ≠ [] → allocate (onlyRes r.name (render isPrint isIPv6 r)) r.name = r.minor) ∧
    ∀ peers, peers.Perm r.peers → (r.peers.map Peer.nodeID).Nodup →
      render isPrint isIPv6 { r with peers } = render isPrint isIPv6 r := by
  have hpeers : ∀ p ∈ sortPeers r.peers, '\n' ∉ p.address.toList := fun p hp =>
    ha p ((List.mem_insertionSort _).mp hp)
  have hlines : Marks (renderLines isPrint isIPv6 r)
      (List.replicate r.peers.length (r.minor : Int)) := by
    have h : Marks (renderLines isPrint isIPv6 r) _ :=
      ((marks_of_inert (inert_headLines hn)).append (marks_peers hr hpeers)).append
        (marks_of_inert (inert_meshLines _))
    rwa [List.append_nil, List.nil_append, sortPeers, List.length_insertionSort] at h
  have hframed : Framed '\n' (render isPrint isIPv6 r) (renderLines isPrint isIPv6 r) [] :=
    ⟨(List.append_nil _).symm, hlines.1, by simp⟩
  have hminors : minorsInRes (render isPrint isIPv6 r) =
      List.replicate r.peers.length (r.minor : Int) := by
    rw [minorsInRes, hframed.splitOn_eq, List.filterMap_append, hlines.2]
    exact List.append_nil _
  refine ⟨hminors, fun hne => ?_, fun peers hperm hid => ?_⟩
  · obtain ⟨p, peers, hp⟩ := List.exists_cons_of_ne_nil hne
    have hown : minorFromOwnRes (render isPrint isIPv6 r) = some (r.minor : Int) := by
      rw [minorFromOwnRes, hminors, hp]
      rfl
    have hlook : (onlyRes r.name (render isPrint isIPv6 r)).configs.lookup r.name =
        some r.minor := by
      rw [onlyRes, hown]
      exact AList.lookup_insert _
    have hassign : (onlyRes r.name (render isPrint isIPv6 r)).assign.lookup r.name = none := rfl
    simp [allocate, hlook, hassign]
  · have hsort := sortPeers_eq_of_perm hperm hid
    exact congrArg (fun ps => (headLines isPrint r ++ ps.flatMap (peerLines isPrint isIPv6 r) ++
      meshLines isPrint ps).flatMap (· ++ ['\n'])) hsort

/-- A volume with two legs, one of them diskless. -/
def twoLegs : RenderInput where
  name := "v"
  localNode := "a"
  localDiskless := false
  peers := [⟨"b", 1, "10.0.0.2", true, false⟩, ⟨"a", 0, "10.0.0.1", false, false⟩]
  minor := 1000
  port := 7000
  quorum := .freeze
  localDisk := "/dev/vg/v"

theorem minorsInRes_render_twoLegs :
    let isPrint := fun c : Char => decide (32 ≤ c.toNat ∧ c.toNat < 127)
    minorsInRes (render isPrint (fun _ => false) twoLegs) = [1000, 1000] ∧
      allocate (onlyRes "v" (render isPrint (fun _ => false) twoLegs)) "v" = 1000 := by
  intro isPrint
  have h := minorsInRes_render isPrint (fun _ => false) twoLegs (by decide) (by decide) (by decide)
  exact ⟨h.1, h.2.1 (by decide)⟩

end Miroir.Drbd
