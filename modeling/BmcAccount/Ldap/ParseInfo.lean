import BmcAccount.Lib.CBuffer

/-!
# Distinguished names from the configuration

The configuration of an LDAP controller has a domain with dots and folders with slashes, and
the server has distinguished names. They are printed piece by piece into a buffer, each piece
with a comma behind it, and the last comma is taken away at the end. The size of the buffers
is made for few labels, while each label of the domain and each part of a folder takes four
bytes more than in the configuration. `parse_exact_iff` says that the names are right exactly
if they fit with their last comma; otherwise the name is cut, and the last byte that is left
is taken away for a comma.

Texts are the bytes before the zero byte.
-/

namespace BmcAccount

namespace ParseInfo

open CString CBuffer

/-- `LDAP_GROUPDN_MAX_LEN`. -/
def ldapGroupdnMaxLen : ℕ :=
  255 + 255 + 255 + 256

/-- `LDAP_USERDN_MAX_LEN`. -/
def ldapUserdnMaxLen : ℕ :=
  255 + 255 + 256

/-- `LDAP_GROUPFOLDER_MAX_LEN`. -/
def ldapGroupfolderMaxLen : ℕ :=
  255

/-- The comma and the separators of the configuration. -/
def comma : UInt8 := 44
def dot : UInt8 := 46
def slash : UInt8 := 47

/-- `parse_ldap_base_info`, for a buffer that is not empty. -/
def parseLdapBaseInfo (domain folder : List UInt8) (baseSize : ℕ) : List UInt8 :=
  let base :=
    if folder = ofString "Users" then appended baseSize [] (ofString "CN=" ++ folder ++ [comma])
    else if folder ≠ [] then appended baseSize [] (folder ++ [comma])
    else []
  match tokens dot domain with
  | [] => appended baseSize base (ofString "DC=" ++ domain)
  | first :: rest =>
    let base := appended baseSize base (ofString "DC=" ++ first ++ [comma])
    (rest.foldl (fun base label => appended baseSize base (ofString "DC=" ++ label ++ [comma]))
      base).dropLast

/-- `LDAP_TAG_CASE_UPPER` and `LDAP_TAG_CASE_LOWER`. -/
inductive TagCase : Type where
  | upper
  | lower
  deriving DecidableEq

/-- The rows of `tag`: `OU`, `DC` and `CN`. -/
def TagCase.ou : TagCase → List UInt8
  | .upper => ofString "OU"
  | .lower => ofString "ou"

def TagCase.dc : TagCase → List UInt8
  | .upper => ofString "DC"
  | .lower => ofString "dc"

def TagCase.cn : TagCase → List UInt8
  | .upper => ofString "CN"
  | .lower => ofString "cn"

/-- `%s=%s,`. -/
def tagged (tag value : List UInt8) : List UInt8 :=
  tag ++ ofString "=" ++ value ++ [comma]

/-- `ldap_group_forder_check`: the folder begins with `OU=` or `CN=`. -/
def ldapGroupForderCheck (folder : List UInt8) : Bool :=
  SameText (folder.take 3) (ofString "OU=") || SameText (folder.take 3) (ofString "CN=")

/-- `parse_mutil_path`: the parts of the folder are put in front of a list one after the other,
and printed from its front. -/
def parseMutilPath (groupInfo folderCp : List UInt8) (tagCase : TagCase) : List UInt8 :=
  let list :=
    match tokens slash folderCp with
    | [] => [folderCp]
    | first :: rest => rest.foldl (fun list part => part :: list) [first]
  list.foldl (fun groupInfo subFolder =>
    appended ldapGroupdnMaxLen groupInfo (tagged tagCase.ou subFolder)) groupInfo

/-- `parse_ldap_group_info`. -/
def parseLdapGroupInfo (domain folder name : List UInt8) (tagCase : TagCase) : List UInt8 :=
  let folderCp := folder.take ldapGroupfolderMaxLen
  let domainCp := domain.take ldapGroupfolderMaxLen
  let groupInfo := appended ldapGroupdnMaxLen [] (tagged tagCase.cn name)
  let groupInfo :=
    if ldapGroupForderCheck folderCp then
      appended ldapGroupdnMaxLen groupInfo (folderCp ++ [comma])
    else if folderCp ≠ [] then parseMutilPath groupInfo folderCp tagCase
    else groupInfo
  match tokens dot domainCp with
  | [] => appended ldapGroupdnMaxLen groupInfo (tagCase.dc ++ ofString "=" ++ domainCp)
  | first :: rest =>
    let groupInfo := appended ldapGroupdnMaxLen groupInfo (tagged tagCase.dc first)
    (rest.foldl (fun groupInfo label =>
      appended ldapGroupdnMaxLen groupInfo (tagged tagCase.dc label)) groupInfo).dropLast

/-! ## The names that are meant -/

/-- The folders of the configuration: none, the parts of a path, or a text of RDNs. -/
inductive Folder : Type where
  | root
  | path (parts : List (List UInt8))
  | rdns (text : List UInt8)

/-- A folder as it is configured. -/
def Folder.text : Folder → List UInt8
  | .root => []
  | .path parts => [slash].intercalate parts
  | .rdns text => text

/-- A path has parts, which are not empty and have no separator and no equals sign, and RDNs
begin with `OU=` or `CN=`. -/
def Folder.WellFormed : Folder → Prop
  | .root => True
  | .path parts => parts ≠ [] ∧ ∀ part ∈ parts, part ≠ [] ∧ slash ∉ part ∧ 61 ∉ part
  | .rdns text => ldapGroupForderCheck text

/-- The RDNs of a folder below the domain, the innermost part first. -/
def Folder.groupRdns : Folder → List (List UInt8)
  | .root => []
  | .path parts => parts.reverse.map (ofString "OU=" ++ ·)
  | .rdns text => [text]

/-- The folder in front of the domain of the users. -/
def Folder.baseRdns (folder : Folder) : List (List UInt8) :=
  if folder.text = ofString "Users" then [ofString "CN=" ++ folder.text]
  else if folder.text = [] then []
  else [folder.text]

/-- The labels of a domain. -/
structure Labels where
  labels : List (List UInt8)
  ne_nil : labels ≠ []
  label_ne_nil : ∀ label ∈ labels, label ≠ []
  dot_notMem : ∀ label ∈ labels, dot ∉ label

/-- A domain as it is configured. -/
def Labels.text (d : Labels) : List UInt8 :=
  [dot].intercalate d.labels

/-- The RDNs of a domain. -/
def Labels.rdns (d : Labels) : List (List UInt8) :=
  d.labels.map (ofString "DC=" ++ ·)

/-- The name of a group of the directory. -/
def groupDn (d : Labels) (folder : Folder) (name : List UInt8) : List UInt8 :=
  [comma].intercalate ((ofString "CN=" ++ name) :: folder.groupRdns ++ d.rdns)

/-- The name below which the users are. -/
def baseDn (d : Labels) (folder : Folder) : List UInt8 :=
  [comma].intercalate (folder.baseRdns ++ d.rdns)

/-! ## What is printed -/

/-- RDNs that are printed one after the other, each with a comma behind it. -/
def printRdns (size : ℕ) (rdns : List (List UInt8)) (out : List UInt8) : List UInt8 :=
  (rdns.map (· ++ [comma])).foldl (appended size) out

theorem printRdns_append {size : ℕ} (rdns rdns' : List (List UInt8)) (out : List UInt8) :
  printRdns size (rdns ++ rdns') out = printRdns size rdns' (printRdns size rdns out)
  := by rw [printRdns, List.map_append, List.foldl_append, printRdns, printRdns]

theorem printRdns_cons {size : ℕ} (rdn : List UInt8) (rdns : List (List UInt8))
    (out : List UInt8) :
  printRdns size (rdn :: rdns) out = printRdns size rdns (appended size out (rdn ++ [comma]))
  := rfl

/-- All RDNs together are cut as one name with a comma at its end is. -/
theorem printRdns_nil {size : ℕ} {rdns : List (List UInt8)} (h : rdns ≠ []) :
  printRdns size rdns [] = printed size ([comma].intercalate rdns ++ [comma])
  := by rw [printRdns, foldl_appended_nil, flatten_map_concat h]

theorem tagged_dc (value : List UInt8) :
  tagged TagCase.upper.dc value = ofString "DC=" ++ value ++ [comma]
  := rfl

theorem tagged_cn (value : List UInt8) :
  tagged TagCase.upper.cn value = ofString "CN=" ++ value ++ [comma]
  := rfl

theorem Labels.tokens_text (d : Labels) :
  tokens dot d.text = d.labels
  := tokens_intercalate d.label_ne_nil d.dot_notMem

/-- Printing the first label and then the others prints all of them. -/
theorem foldl_labels {size : ℕ} (first : List UInt8) (rest : List (List UInt8))
    (out : List UInt8) :
  rest.foldl (fun out label => appended size out (ofString "DC=" ++ label ++ [comma]))
      (appended size out (ofString "DC=" ++ first ++ [comma]))
    = printRdns size ((first :: rest).map (ofString "DC=" ++ ·)) out
  := by
  rw [List.map_cons, printRdns_cons, printRdns, List.map_map, List.foldl_map]
  rfl

theorem parseLdapBaseInfo_eq (d : Labels) (folder : Folder) (size : ℕ) :
  parseLdapBaseInfo d.text folder.text size
    = (printed size (baseDn d folder ++ [comma])).dropLast
  := by
  have hne : folder.baseRdns ++ d.rdns ≠ [] := by
    simp [Labels.rdns, d.ne_nil]
  have hfolder : printRdns size folder.baseRdns []
      = if folder.text = ofString "Users"
        then appended size [] (ofString "CN=" ++ folder.text ++ [comma])
        else if folder.text ≠ [] then appended size [] (folder.text ++ [comma])
        else [] := by
    rw [Folder.baseRdns]
    split
    · rfl
    · by_cases hempty : folder.text = []
      · rw [if_pos hempty, if_neg (by simpa using hempty)]
        rfl
      · rw [if_neg hempty, if_pos hempty]
        rfl
  rw [baseDn, ← printRdns_nil hne, printRdns_append, hfolder, Labels.rdns, parseLdapBaseInfo,
    d.tokens_text]
  obtain ⟨first, rest, hlabels⟩ := List.exists_cons_of_ne_nil d.ne_nil
  rw [hlabels]
  simp only [foldl_labels]

/-- A text without an equals sign does not begin as RDNs do. -/
theorem ldapGroupForderCheck_of_notMem {s : List UInt8} (h : 61 ∉ s) :
  ldapGroupForderCheck s = false
  := by
  have hnone : ∀ tag : List UInt8, 61 ∈ tag.map lower → ¬ SameText (s.take 3) tag := by
    intro tag htag hsame
    rw [← hsame, List.mem_map] at htag
    obtain ⟨c, hc, heq⟩ := htag
    rw [(lower_eq_iff (by decide)).mp heq] at hc
    exact h (List.mem_of_mem_take hc)
  rw [ldapGroupForderCheck, decide_eq_false (hnone _ (by decide)),
    decide_eq_false (hnone _ (by decide))]
  rfl

theorem Folder.parseMutilPath_path {parts : List (List UInt8)} (out : List UInt8)
    (h : (Folder.path parts).WellFormed) :
  parseMutilPath out (Folder.path parts).text .upper
    = printRdns ldapGroupdnMaxLen (Folder.path parts).groupRdns out
  := by
  obtain ⟨hne, hparts⟩ := h
  have htokens : tokens slash (Folder.path parts).text = parts :=
    tokens_intercalate (fun t ht => (hparts t ht).1) (fun t ht => (hparts t ht).2.1)
  obtain ⟨first, rest, rfl⟩ := List.exists_cons_of_ne_nil hne
  rw [parseMutilPath, htokens, Folder.groupRdns, List.reverse_cons]
  simp only [List.foldl_flip_cons_eq_append', printRdns, List.map_map, List.foldl_map]
  rfl

/-- The folder is printed as its RDNs. -/
theorem Folder.WellFormed.print_eq {folder : Folder} (out : List UInt8) (h : folder.WellFormed) :
  (if ldapGroupForderCheck folder.text then
      appended ldapGroupdnMaxLen out (folder.text ++ [comma])
    else if folder.text ≠ [] then parseMutilPath out folder.text .upper
    else out)
    = printRdns ldapGroupdnMaxLen folder.groupRdns out
  := by
  cases folder with
  | root => rfl
  | path parts =>
    have hplain : 61 ∉ (Folder.path parts).text := by
      intro hmem
      rcases mem_intercalate hmem with hslash | ⟨part, hpart, hmem⟩
      · exact absurd hslash (by decide)
      · exact (h.2 part hpart).2.2 hmem
    have hne : (Folder.path parts).text ≠ [] := by
      intro hnil
      have htokens : tokens slash (Folder.path parts).text = parts :=
        tokens_intercalate (fun t ht => (h.2 t ht).1) (fun t ht => (h.2 t ht).2.1)
      rw [hnil] at htokens
      exact h.1 htokens.symm
    rw [ldapGroupForderCheck_of_notMem hplain, if_neg (by simp), if_pos hne,
      Folder.parseMutilPath_path out h]
  | rdns text =>
    have hcheck : ldapGroupForderCheck text = true := h
    rw [Folder.text, if_pos hcheck]
    rfl

theorem parseLdapGroupInfo_eq (d : Labels) {folder : Folder} (name : List UInt8)
    (h : folder.WellFormed) (hdomain : d.text.length ≤ ldapGroupfolderMaxLen)
    (hfolder : folder.text.length ≤ ldapGroupfolderMaxLen) :
  parseLdapGroupInfo d.text folder.text name .upper
    = (printed ldapGroupdnMaxLen (groupDn d folder name ++ [comma])).dropLast
  := by
  rw [groupDn, ← printRdns_nil (by simp), List.cons_append, printRdns_cons, printRdns_append,
    Labels.rdns, parseLdapGroupInfo, List.take_of_length_le hdomain,
    List.take_of_length_le hfolder, d.tokens_text, ← h.print_eq]
  obtain ⟨first, rest, hlabels⟩ := List.exists_cons_of_ne_nil d.ne_nil
  rw [hlabels]
  simp only [tagged_dc, tagged_cn, foldl_labels]

/-- The names of a group and of the users are right exactly if they fit into their buffers with
a comma behind them. -/
theorem parse_exact_iff (d : Labels) (folder : Folder) (name : List UInt8)
    (h : folder.WellFormed) (hdomain : d.text.length ≤ ldapGroupfolderMaxLen)
    (hfolder : folder.text.length ≤ ldapGroupfolderMaxLen) :
  (parseLdapGroupInfo d.text folder.text name .upper = groupDn d folder name
      ∧ parseLdapBaseInfo d.text folder.text ldapUserdnMaxLen = baseDn d folder)
    ↔ (groupDn d folder name).length + 1 < ldapGroupdnMaxLen
      ∧ (baseDn d folder).length + 1 < ldapUserdnMaxLen
  := by
  rw [parseLdapGroupInfo_eq d name h hdomain hfolder, parseLdapBaseInfo_eq,
    dropLast_printed_concat_iff _ _ (by decide), dropLast_printed_concat_iff _ _ (by decide)]

/-- The domain of 120 labels `a`. -/
def longDomain : Labels where
  labels := List.replicate 120 (ofString "a")
  ne_nil := by simp
  label_ne_nil := by
    intro label hlabel
    rw [List.eq_of_mem_replicate hlabel]
    decide
  dot_notMem := by
    intro label hlabel
    rw [List.eq_of_mem_replicate hlabel]
    decide

/-- The folder of 120 parts `b`. -/
def longFolder : Folder :=
  .path (List.replicate 120 (ofString "b"))

theorem longFolder_wellFormed :
  longFolder.WellFormed
  := by
  constructor
  · simp
  · intro part hpart
    rw [List.eq_of_mem_replicate hpart]
    decide

/-- With a domain and a folder of 239 bytes each, the names are cut. -/
theorem not_parse_exact :
  longFolder.WellFormed ∧ longDomain.text.length ≤ ldapGroupfolderMaxLen
    ∧ longFolder.text.length ≤ ldapGroupfolderMaxLen
    ∧ ¬ (parseLdapGroupInfo longDomain.text longFolder.text (ofString "ops") .upper
        = groupDn longDomain longFolder (ofString "ops")
      ∧ parseLdapBaseInfo longDomain.text longFolder.text ldapUserdnMaxLen
        = baseDn longDomain longFolder)
  := by
  have hdomain : longDomain.text.length ≤ ldapGroupfolderMaxLen := by decide +kernel
  have hfolder : longFolder.text.length ≤ ldapGroupfolderMaxLen := by decide +kernel
  refine ⟨longFolder_wellFormed, hdomain, hfolder, ?_⟩
  rintro ⟨hgroup, -⟩
  rw [parseLdapGroupInfo_eq longDomain _ longFolder_wellFormed hdomain hfolder,
    dropLast_printed_concat_iff _ _ (by decide)] at hgroup
  revert hgroup
  decide +kernel

/-- The domain `example.com`. -/
def exampleCom : Labels where
  labels := [ofString "example", ofString "com"]
  ne_nil := by simp
  label_ne_nil := by decide
  dot_notMem := by decide

/-- The folder `it/ops`. -/
def itOps : Folder :=
  .path [ofString "it", ofString "ops"]

/-- The names for a short domain and a short folder are right. -/
theorem parse_exact_iff_itOps :
  groupDn exampleCom itOps (ofString "admins")
      = ofString "CN=admins,OU=ops,OU=it,DC=example,DC=com"
    ∧ baseDn exampleCom itOps = ofString "it/ops,DC=example,DC=com"
    ∧ parseLdapGroupInfo exampleCom.text itOps.text (ofString "admins") .upper
      = groupDn exampleCom itOps (ofString "admins")
    ∧ parseLdapBaseInfo exampleCom.text itOps.text ldapUserdnMaxLen = baseDn exampleCom itOps
  := by
  have hfolder : itOps.WellFormed := by
    constructor <;> decide
  refine ⟨by decide, by decide, ?_⟩
  apply (parse_exact_iff exampleCom itOps (ofString "admins") hfolder (by decide) (by decide)).mpr
  decide

end ParseInfo

end BmcAccount
