import BmcAccount.Lib.Search

/-!
# The groups of an LDAP user

After a user of a directory is bound, the groups that are configured on the BMC and that
contain the user, directly or through nested groups, decide on the role of the session.
There are two searches. The first one goes up from the user along `memberOf`, where the
server provides this attribute, and the second one goes down from each configured group
along `member`. Both keep a table of the DNs they have been to.

The search upwards is exact. The one downwards looks for a DN that is printed from the name of
the user and the base, which is not that of a user in a folder below the base, and it uses one
table for all configured groups, so that it misses a group all of whose chains to the user run
into what was visited for the groups before it. `groupsResolved_iff` says exactly when neither
matters.
-/

namespace BmcAccount

namespace Ldap

open Search

/-- What a search of the directory returns: the attribute `member` of the entry of a DN, and
its attribute `memberOf`. A directory spells a DN in one way, so that the comparison of DNs
up to the case of their tags, `compare_ldap_sentence_without_tag`, is equality. -/
structure Directory (Dn : Type) where
  member : Dn → Option (List Dn)
  memberOf : Dn → List Dn
  groups : Finset Dn
  mem_groups : ∀ g, g ∈ groups ↔ (member g).isSome
  providesMemberOf : Bool
  memberOf_eq_nil : providesMemberOf = false → ∀ x, memberOf x = []
  mem_memberOf : providesMemberOf = true → ∀ x g, g ∈ memberOf x ↔ x ∈ (member g).getD []

/-- The members of a group. -/
def Directory.members {Dn : Type} (dir : Directory Dn) (g : Dn) : List Dn :=
  (dir.member g).getD []

/-- A group contains a user directly or through a chain of nested groups. -/
inductive Contains {Dn : Type} (dir : Directory Dn) (user : Dn) : Dn → Prop
  | direct {g : Dn} : user ∈ dir.members g → Contains dir user g
  | nested {g h : Dn} : h ∈ dir.members g → Contains dir user h → Contains dir user g

/-- The user who is bound: the DN of its entry, and the one that `do_search_user_group` prints,
`CN=` or `UID=` and the name of the user under the base. -/
structure UserDn (Dn : Type) where
  entry : Dn
  userdn : Dn

/-- `LDAP_AUTH_SUCCESS`, `LDAP_AUTH_ERROR` and `LDAP_AUTH_UNKNOWN`. -/
inductive AuthCode : Type where
  | success
  | error
  | unknown
  deriving DecidableEq

/-- `MAX_LDAP_GRP_HASH_SIZE`. -/
def maxLdapGrpHashSize : ℕ :=
  2000

/-- The groups that are configured. -/
abbrev GroupConf (Dn : Type) : Type :=
  Fin 5 → Option Dn

/-- The numbers of the groups that were found, `0xff` for none. -/
abbrev GroupIds : Type :=
  Fin 5 → ℕ

/-- `group_id` as `mscm_ldap_authenticate` passes it. -/
def noGroups : GroupIds :=
  fun _ => 0xff

variable {Dn : Type} [DecidableEq Dn]

/-! ## The search from a group down to the user -/

/-- The loop of `do_search_user_group` over the members of a group. -/
def searchMembers (f : List Dn → Dn → AuthCode × List Dn) :
    List Dn → List Dn → AuthCode × List Dn
  | grpHash, [] => (.error, grpHash)
  | grpHash, m :: members =>
    let (ret, grpHash) := f grpHash m
    if ret = .success then (.success, grpHash) else searchMembers f grpHash members

/-- `do_search_user_group`: the first argument is how many levels are left, one more than
`MAX_TREE_DEPTH` at the top. -/
def doSearchUserGroup (dir : Directory Dn) (userdn : Dn) :
    ℕ → List Dn → Dn → AuthCode × List Dn
  | 0, grpHash, _ => (.unknown, grpHash)
  | level + 1, grpHash, groupName =>
    if maxLdapGrpHashSize ≤ grpHash.length ∨ groupName ∈ grpHash then (.unknown, grpHash)
    else
      let grpHash := groupName :: grpHash
      match dir.member groupName with
      | none => (.unknown, grpHash)
      | some member =>
        if userdn ∈ member then (.success, grpHash)
        else searchMembers (doSearchUserGroup dir userdn level) grpHash member

/-- The state of `do_search_by_username`. -/
structure UsernameState (Dn : Type) where
  findGrpHash : List Dn := []
  grpFoundHash : List Dn := []
  group : GroupIds
  flag : Bool := false

/-- One pass of the loop of `do_search_by_username`. -/
def usernameStep (dir : Directory Dn) (userdn : Dn) (groupdn : GroupConf Dn)
    (st : UsernameState Dn) (j : Fin 5) : UsernameState Dn :=
  match groupdn j with
  | none => st
  | some g =>
    if g ∈ st.findGrpHash ∧ g ∈ st.grpFoundHash then
      { st with group := Function.update st.group j j }
    else
      let (ret, findGrpHash) := doSearchUserGroup dir userdn 51 st.findGrpHash g
      if ret = .success then
        { findGrpHash
          grpFoundHash := g :: st.grpFoundHash
          group := Function.update st.group j j
          flag := true }
      else { st with findGrpHash }

/-- `do_search_by_username`. -/
def doSearchByUsername (dir : Directory Dn) (userdn : Dn) (groupdn : GroupConf Dn)
    (group : GroupIds) : AuthCode × GroupIds :=
  let st := [0, 1, 2, 3, 4].foldl (usernameStep dir userdn groupdn) { group }
  (if st.flag then .success else .unknown, st.group)

/-! ## The search from the user up to the groups -/

/-- The state of `do_search_group_owner`. -/
structure OwnerState (Dn : Type) where
  grpHash : List Dn
  group : GroupIds

/-- The loop of `do_search_group_owner`, and of `do_search_by_memberof_ext`, over the values
of `memberOf`. -/
def searchOwners (f : OwnerState Dn → Dn → AuthCode × OwnerState Dn) :
    Bool → OwnerState Dn → List Dn → Bool × OwnerState Dn
  | searchResult, st, [] => (searchResult, st)
  | searchResult, st, g :: attrVal =>
    let (ret, st) := f st g
    searchOwners f (searchResult || decide (ret = .success)) st attrVal

/-- `do_search_group_owner`, with the levels that are left. -/
def doSearchGroupOwner (dir : Directory Dn) (groupdn : GroupConf Dn) :
    ℕ → OwnerState Dn → Dn → AuthCode × OwnerState Dn
  | 0, st, _ => (.unknown, st)
  | level + 1, st, groupName =>
    if maxLdapGrpHashSize ≤ st.grpHash.length ∨ groupName ∈ st.grpHash then (.unknown, st)
    else
      let matchFlag := decide (∃ i, groupdn i = some groupName)
      let (searchResult, st) := searchOwners (doSearchGroupOwner dir groupdn level) false
        { grpHash := groupName :: st.grpHash
          group := fun i => if groupdn i = some groupName then i else st.group i }
        (dir.memberOf groupName)
      (if matchFlag || searchResult then .success else .error, st)

/-- `do_search_by_memberof`: the search begins at level `1`. -/
def doSearchByMemberof (dir : Directory Dn) (user : Dn) (groupdn : GroupConf Dn)
    (group : GroupIds) : AuthCode × GroupIds :=
  let (flag, st) := searchOwners (doSearchGroupOwner dir groupdn 50) false
    { grpHash := [], group } (dir.memberOf user)
  (if flag then .success else .unknown, st.group)

/-- `do_get_user_group`. -/
def doGetUserGroup (dir : Directory Dn) (user : UserDn Dn) (groupdn : GroupConf Dn)
    (group : GroupIds) : AuthCode × GroupIds :=
  let (rc, group) := doSearchByMemberof dir user.entry groupdn group
  if rc = .success then (rc, group) else doSearchByUsername dir user.userdn groupdn group

/-! ## What is to be found -/

/-- A group that is configured as the `j`-th one contains the user. -/
def Member (dir : Directory Dn) (user : Dn) (groupdn : GroupConf Dn) (j : Fin 5) : Prop :=
  ∃ g, groupdn j = some g ∧ Contains dir user g

/-- The result of a search: exactly the groups that contain the user. -/
def Resolves (dir : Directory Dn) (user : Dn) (groupdn : GroupConf Dn)
    (r : AuthCode × GroupIds) : Prop :=
  (∀ j : Fin 5, r.2 j = j ↔ Member dir user groupdn j)
    ∧ (r.1 = .success ↔ ∃ j, Member dir user groupdn j)

/-- The search for the groups is exact, and its two methods agree where both are
available. -/
structure GroupsResolved (dir : Directory Dn) (user : UserDn Dn) (groupdn : GroupConf Dn) :
    Prop where
  resolves : Resolves dir user.entry groupdn (doGetUserGroup dir user groupdn noGroups)
  agree : dir.providesMemberOf = true →
    doSearchByMemberof dir user.entry groupdn noGroups
      = doSearchByUsername dir user.userdn groupdn noGroups

/-- The graph of the search downwards: its goals are the groups with the printed DN among their
members. -/
def down (dir : Directory Dn) (userdn : Dn) : Graph Dn where
  next := dir.members
  goal g := decide (userdn ∈ dir.members g)

/-- The DNs that depth-first searches from the first `j` configured groups enter, each
stopping at the first group with the printed DN among its members. -/
def trail (dir : Directory Dn) (userdn : Dn) (groupdn : GroupConf Dn) : ℕ → List Dn
  | 0 => []
  | j + 1 =>
    if h : j < 5 then
      match groupdn ⟨j, h⟩ with
      | none => trail dir userdn groupdn j
      | some g => (visit (down dir userdn) unbounded 51 (trail dir userdn groupdn j) g).2
    else trail dir userdn groupdn j

/-- A chain leads from the group `g`, as the `i`-th one, to the printed DN and avoids what is
entered for the groups before it, and not more DNs are entered than the table has room
for. -/
def Reached (dir : Directory Dn) (userdn : Dn) (groupdn : GroupConf Dn) (i : Fin 5) (g : Dn) :
    Prop :=
  Leads (down dir userdn) (trail dir userdn groupdn i) g
    ∧ (trail dir userdn groupdn (i + 1)).length ≤ maxLdapGrpHashSize

/-- A configured group contains the user exactly if it is reached, where it is configured or where
it was configured before. -/
def EachReached (dir : Directory Dn) (user : UserDn Dn) (groupdn : GroupConf Dn) : Prop :=
  ∀ j g, groupdn j = some g → (Contains dir user.entry g ↔
    ∃ i ≤ j, groupdn i = some g ∧ Reached dir user.userdn groupdn i g)

end Ldap

end BmcAccount
