import BmcAccount.Ldap.Authorise
import BmcAccount.Lib.Fields
import BmcAccount.Lib.LuaPattern
import BmcAccount.Lib.LuaTable
import BmcAccount.Lib.Raise
import BmcAccount.Lib.Run

/-!
# The table of the remote groups

A remote group has two identifiers: the one under which it is in the table, which has room for
all groups of all controllers, and an inner one among the groups of its controller. Both are
looked for when a group is added, the first with the help of the length of the table, which
says little when the table has holes. To delete a group its controller and its inner
identifier are read back from the text that adding it has returned.

A group in the making is a row already while its properties are set one after the other, each
by a setter that may raise; then the row is deleted again.
-/

namespace BmcAccount

namespace Ldap

/-! ## Rows -/

/-- The number of a `RemoteGroupType`. -/
def RemoteGroupType.value : RemoteGroupType → ℕ
  | .ldap => 0
  | .kerberos => 1

/-- `MAX_GROUP_CNT_IN_CONTROLLER`. -/
def maxGroupCntInController : ℕ := 5

/-- `MAX_LDAP_COUNT`. -/
def maxLdapCount : ℕ := 6

/-- `MAX_Kerberos_COUNT`. -/
def maxKerberosCount : ℕ := 1

/-- `MAX_NAME_LENGTH`. -/
def maxNameLength : ℕ := 255

/-- `MAX_PERMIT_ID`. -/
def maxPermitId : ℕ := 7

/-- `MAX_LOGIN_INTERFACE_ID`. -/
def maxLoginInterfaceId : ℕ := 137

/-- A row of `t_remote_group`; a value that no setter has set yet is missing. -/
structure GroupRow where
  id : ℕ
  groupType : ℕ
  controllerId : ℕ
  controllerInnerId : ℕ
  sid : String
  userRoleId : ℕ
  name : Option String
  folder : Option String
  privilege : Option ℕ
  permitRuleIds : Option ℕ
  loginInterface : Option ℕ
deriving DecidableEq

/-- The groups under their identifiers, and the rows of the database under their primary key,
which is the identifier with the inner one. -/
@[ext]
structure GroupTable where
  collection : ℕ → Option GroupRow
  rows : ℕ × ℕ → Option GroupRow

/-- There are no groups. -/
def GroupTable.empty : GroupTable :=
  ⟨fun _ => none, fun _ => none⟩

/-- The messages of the errors. -/
inductive GroupError where
  | invalidValue (value field : String)
  | propertyMemberQtyExceedLimit (field : String)
  | resourceAlreadyExists
  | propertyValueExceedsMaxLength (value field length : String)
  | propertyValueFormatError (value field : String)
  | propertyValueNotInList (value field : String)
  | propertyItemDuplicate (item : String)
  | propertyItemNotInList (value field : String)
  | internalError
deriving DecidableEq

/-- Programs on the table. -/
abbrev G (α : Type) : Type := Raise.Prog GroupError GroupTable α

open Raise

/-- The primary key of a row. -/
def GroupRow.key (g : GroupRow) : ℕ × ℕ := (g.id, g.controllerInnerId)

/-- `save` of a row. -/
def GroupTable.save (t : GroupTable) (g : GroupRow) : GroupTable :=
  { t with rows := Function.update t.rows g.key (some g) }

/-- The group is in the collection, and its row in the database. -/
def GroupTable.enter (t : GroupTable) (g : GroupRow) : GroupTable where
  collection := Function.update t.collection g.id (some g)
  rows := Function.update t.rows g.key (some g)

/-- Neither the group nor its row is there. -/
def GroupTable.remove (t : GroupTable) (g : GroupRow) : GroupTable where
  collection := Function.update t.collection g.id none
  rows := Function.update t.rows g.key none

@[simp]
theorem collection_enter (t : GroupTable) (g : GroupRow) :
  (t.enter g).collection = Function.update t.collection g.id (some g)
  := rfl

@[simp]
theorem collection_remove (t : GroupTable) (g : GroupRow) :
  (t.remove g).collection = Function.update t.collection g.id none
  := rfl

@[simp]
theorem rows_save (t : GroupTable) (g : GroupRow) :
  (t.save g).rows = Function.update t.rows g.key (some g)
  := rfl

@[simp]
theorem rows_enter (t : GroupTable) (g : GroupRow) :
  (t.enter g).rows = Function.update t.rows g.key (some g)
  := rfl

@[simp]
theorem rows_remove (t : GroupTable) (g : GroupRow) :
  (t.remove g).rows = Function.update t.rows g.key none
  := rfl

/-! ## Setters -/

/-- A setter checks the value, writes it and saves the row. -/
def setField (check : Except GroupError Unit) (write : GroupRow → GroupRow) (g : GroupRow) :
    G GroupRow := do
  outcome check
  modify fun t => t.save (write g)
  return write g

/-- `contain_invisible_charactor`. -/
def containInvisibleCharactor (s : String) : Bool :=
  s.toList.any fun c => decide (c.toNat ≤ 0x1F) || decide (c.toNat = 0x7F)

/-- The checks of a name or a folder. -/
def checkText (lengthField formatField visibleField : String) (value : String) :
    Except GroupError Unit := do
  if maxNameLength < value.utf8ByteSize then
    throw (.propertyValueExceedsMaxLength value lengthField "255")
  if value.toList.head? = some ' ' ∨ value.toList.getLast? = some ' ' then
    throw (.propertyValueFormatError ("%" ++ formatField ++ ":" ++ value) ("%" ++ formatField))
  if containInvisibleCharactor value then
    throw (.invalidValue value visibleField)

/-- `set_remote_group_name`. -/
def setRemoteGroupName (value : String) : GroupRow → G GroupRow :=
  setField (checkText "GroupName" "Name" "GroupName" value)
    fun g => { g with name := some value }

/-- `set_remote_group_folder`. -/
def setRemoteGroupFolder (value : String) : GroupRow → G GroupRow :=
  setField (checkText "Folder" "Folder" "GroupFolder" value)
    fun g => { g with folder := some value }

/-- The checks of a SID. -/
def checkSid (value : String) : Except GroupError Unit := do
  if value = "" then
    throw (.propertyValueNotInList "%SID: " "%SID")
  if ' ' ∈ value.toList then
    throw (.propertyValueFormatError ("%SID:" ++ value) "%SID")
  if containInvisibleCharactor value then
    throw (.invalidValue value "SID")

/-- `set_remote_group_sid`, which leaves a group of LDAP alone. -/
def setRemoteGroupSid (value : String) (g : GroupRow) : G GroupRow :=
  if g.groupType = RemoteGroupType.ldap.value then pure g
  else setField (checkSid value) (fun g => { g with sid := value }) g

/-- The numbers of `RoleType` that stand in a check. -/
def commonUser : ℕ := 2
def customRole1 : ℕ := 5
def customRole4 : ℕ := 8
def customRole16 : ℕ := 20

/-- `IpmiPrivilege.OPERATOR`. -/
def operatorPrivilege : ℕ := 3

/-- A role is one that is always there, or one of the roles `roles` that are there. -/
def checkRole (roles : ℕ → Bool) (value : ℕ) : Except GroupError Unit := do
  if (value < commonUser ∨ customRole4 < value) ∧ roles value = false then
    throw (.propertyValueNotInList "%UserRoleId:Unknown" "%UserRoleId")

/-- `set_remote_group_role_id`. -/
def setRemoteGroupRoleId (roles : ℕ → Bool) (value : ℕ) : GroupRow → G GroupRow :=
  setField (checkRole roles value) fun g => { g with userRoleId := value }

/-- `set_remote_group_privilege`. -/
def setRemoteGroupPrivilege (roles : ℕ → Bool) (value : ℕ) : GroupRow → G GroupRow :=
  setField (checkRole roles value) fun g =>
    { g with
      privilege := some
        (if customRole1 ≤ value ∧ value ≤ customRole16 then operatorPrivilege else value) }

/-- `set_remote_group_permit_rule_ids`. -/
def setRemoteGroupPermitRuleIds (value : ℕ) : GroupRow → G GroupRow :=
  setField (if maxPermitId < value then throw .internalError else pure ())
    fun g => { g with permitRuleIds := some value }

/-- No interface other than those at the offsets is in the number. -/
def onlyOffsets (offsets : List ℕ) (value : ℕ) : Bool :=
  (List.range 8).all fun i => decide (i ∈ offsets) || !value.testBit i

/-- `check_ldap_group_login_interface`: the offsets of the web, of SSH and of Redfish. -/
def checkLdapGroupLoginInterface : ℕ → Bool := onlyOffsets [0, 3, 7]

/-- `check_kerberos_group_login_interface`. -/
def checkKerberosGroupLoginInterface : ℕ → Bool := onlyOffsets [0, 7]

/-- The flag of `set_remote_group_login_interface`. -/
def checkLoginInterface (groupType value : ℕ) : Bool :=
  if groupType = RemoteGroupType.ldap.value then checkLdapGroupLoginInterface value
  else decide (groupType = RemoteGroupType.kerberos.value)
    && checkKerberosGroupLoginInterface value

/-- `set_remote_group_login_interface`. -/
def setRemoteGroupLoginInterface (value : ℕ) (g : GroupRow) : G GroupRow :=
  setField
    (do
      if maxLoginInterfaceId < value then throw .internalError
      if checkLoginInterface g.groupType value = false then
        throw (.invalidValue (toString value) "LoginInterface"))
    (fun g => { g with loginInterface := some value }) g

/-! ## The properties of a new group -/

/-- The arguments of `new_remote_group`. -/
structure NewGroup where
  groupType : ℕ
  controllerId : ℕ
  memberId : ℕ
  groupName : String
  folder : String
  sid : String
  roleId : ℕ
  permitRuleIds : List String
  loginInterface : List String

/-- The numbers of `LoginRuleIds`, without `Rule_Invalid`. -/
def loginRuleId : String → Option ℕ
  | "Rule1" => some 1
  | "Rule2" => some 2
  | "Rule3" => some 4
  | _ => none

/-- The loop of `check_login_rule_ids`, with the rules that have been there. -/
def checkRuleIds (ids : List String) : List String → List String → Except GroupError Unit
  | _, [] => pure ()
  | seen, ruleId :: rest => do
    if ruleId ∈ seen then
      throw (.propertyItemDuplicate ruleId)
    if loginRuleId ruleId = none then
      throw (.propertyItemNotInList ("LoginRuleIds:" ++ " ".intercalate ids) "LoginRuleIds")
    checkRuleIds ids (ruleId :: seen) rest

/-- `check_login_rule_ids`. -/
def checkLoginRuleIds (ids : List String) : Except GroupError Unit := do
  if 3 < ids.length then
    throw (.propertyMemberQtyExceedLimit "LoginRule")
  checkRuleIds ids [] ids

/-- `covert_login_rule_ids_str_to_num`. -/
def covertLoginRuleIdsStrToNum (ids : List String) : ℕ :=
  ids.foldl (fun num id => num ||| (loginRuleId id).getD 0) 0

/-- The numbers of the interfaces of `LDAP_SUPPORT_TYPE`. -/
def supportedInterface : String → Option ℕ
  | "Web" => some 1
  | "SSH" => some 8
  | "Redfish" => some 128
  | _ => none

/-- `check_remote_group_interface_info`; `Kerberos_SUPPORT_TYPE` lacks SSH. -/
def checkRemoteGroupInterfaceInfo (groupType : ℕ) (interfaces : List String) : Bool :=
  decide interfaces.Nodup && interfaces.all fun i =>
    (supportedInterface i).isSome && (decide (groupType = RemoteGroupType.ldap.value)
      || decide (i ≠ "SSH"))

/-- `cover_interface_str_to_num`. -/
def coverInterfaceStrToNum (interfaces : List String) : ℕ :=
  interfaces.foldl (fun num i => num ||| (supportedInterface i).getD 0) 0

/-- `setup_group_properties`. -/
def setupGroupProperties (roles : ℕ → Bool) (a : NewGroup) (g : GroupRow) : G GroupRow := do
  let g ← setRemoteGroupName a.groupName g
  let g ← setRemoteGroupSid a.sid g
  let g ← setRemoteGroupFolder a.folder g
  let g ← setRemoteGroupRoleId roles a.roleId g
  let g ← setRemoteGroupPrivilege roles a.roleId g
  outcome (checkLoginRuleIds a.permitRuleIds)
  let g ← setRemoteGroupPermitRuleIds (covertLoginRuleIdsStrToNum a.permitRuleIds) g
  refuse (!checkRemoteGroupInterfaceInfo a.groupType a.loginInterface)
    (.invalidValue (" ".intercalate a.loginInterface) "LoginInterface")
  setRemoteGroupLoginInterface (coverInterfaceStrToNum a.loginInterface) g

/-! ## The collection -/

/-- The group is one of the controller. -/
def GroupRow.isIn (groupType serverId : ℕ) (g : GroupRow) : Bool :=
  decide (g.groupType = groupType) && decide (g.controllerId = serverId)

/-- A group of the controller is entered under its inner identifier, and counted. -/
def GroupRow.count (acc : (ℕ → Option GroupRow) × ℕ) (g : GroupRow) :
    (ℕ → Option GroupRow) × ℕ :=
  (Function.update acc.1 g.controllerInnerId (some g), acc.2 + 1)

/-- `get_remote_groups_in_controller`. -/
def GroupTable.getRemoteGroupsInController (t : GroupTable) (groupType serverId : ℕ) :
    (ℕ → Option GroupRow) × ℕ :=
  (List.range' 1 maxGroupCount).foldl (fun acc i =>
    match t.collection i with
    | none => acc
    | some g => if g.isIn groupType serverId then GroupRow.count acc g else acc)
    (fun _ => none, 0)

/-- `find_unused_group_id`, where `border` is what the length operator returns for the
collection. -/
def GroupTable.findUnusedGroupId (t : GroupTable) (border : ℕ) : ℕ :=
  ((List.range' 1 border).find? fun i => (t.collection i).isNone).getD (border + 1)

/-- `find_unused_controller_inner_id`. -/
def findUnusedControllerInnerId (groups : ℕ → Option GroupRow) : Except GroupError ℕ :=
  match (List.range' 1 maxGroupCntInController).find? fun i => (groups i).isNone with
  | some i => .ok i
  | none => .error (.propertyMemberQtyExceedLimit "RemoteGroup")

/-- `check_controller_type_and_id`. -/
def checkControllerTypeAndId (groupType controllerId : ℕ) : Bool :=
  if groupType = RemoteGroupType.ldap.value then
    decide (0 < controllerId) && decide (controllerId ≤ maxLdapCount)
  else decide (groupType = RemoteGroupType.kerberos.value)
    && decide (controllerId = maxKerberosCount)

/-- The inner identifier of a new group. -/
def innerIdFor (groups : ℕ → Option GroupRow) (memberId : ℕ) : Except GroupError ℕ :=
  if memberId = 0 then findUnusedControllerInnerId groups else .ok memberId

/-- The row that is made for a new group. -/
def NewGroup.row (a : NewGroup) (groupId innerId : ℕ) : GroupRow where
  id := groupId
  groupType := a.groupType
  controllerId := a.controllerId
  controllerInnerId := innerId
  sid := a.sid
  userRoleId := a.roleId
  name := none
  folder := none
  privilege := none
  permitRuleIds := none
  loginInterface := none

/-- The `mdb_id` of a group. -/
def mdbId (groupType controllerId innerId : ℕ) : String :=
  (if groupType = 0 then "LDAP" else "KERBEROS") ++ toString controllerId ++ "_"
    ++ toString innerId

/-- `new_remote_group`, where `roles` are the roles that are there. -/
def newRemoteGroup (roles : ℕ → Bool) (border : ℕ) (a : NewGroup) : G (String × ℕ) := do
  refuse (!checkControllerTypeAndId a.groupType a.controllerId)
    (.invalidValue (toString a.controllerId) "ControllerId")
  refuse (decide (maxGroupCntInController < a.memberId))
    (.invalidValue (toString a.memberId) "MemberId")
  let t ← get
  let groups := t.getRemoteGroupsInController a.groupType a.controllerId
  refuse (decide (maxGroupCntInController ≤ groups.2))
    (.propertyMemberQtyExceedLimit "RemoteGroup")
  let groupId := t.findUnusedGroupId border
  refuse (groups.1 a.memberId).isSome .resourceAlreadyExists
  let innerId ← outcome (innerIdFor groups.1 a.memberId)
  let g ← protect (setupGroupProperties roles a (a.row groupId innerId)) fun e => do
    modify fun t => t.remove (a.row groupId innerId)
    throw e
  modify fun t => { t with collection := Function.update t.collection groupId (some g) }
  return (mdbId a.groupType a.controllerId innerId, groupId)

/-- The pattern `(%w+)(%d+)_(%d+)`. -/
def mdbIdPattern : List LuaPattern.Item :=
  [.plus Char.isAlphanum, .plus Char.isDigit, .lit '_', .plus Char.isDigit]

/-- The type, the controller and the inner identifier in an `mdb_id`. -/
def parseMdbId (mdbId : String) : Option (List Char × ℕ × ℕ) :=
  match LuaPattern.captures mdbIdPattern mdbId.toList with
  | some [groupType, controller, innerId] =>
    some (groupType, Fields.number controller, Fields.number innerId)
  | _ => none

/-- `get_remote_group_by_id`; all that does not read `LDAP` is Kerberos. -/
def GroupTable.getRemoteGroupById (t : GroupTable) (groupType : List Char)
    (controller innerId : ℕ) : Option GroupRow :=
  let real : RemoteGroupType := if groupType = "LDAP".toList then .ldap else .kerberos
  (t.getRemoteGroupsInController real.value controller).1 innerId

/-- The group that `delete_remote_group` finds. -/
def GroupTable.named (t : GroupTable) (mdbId : String) : Option GroupRow :=
  (parseMdbId mdbId).bind fun p => t.getRemoteGroupById p.1 p.2.1 p.2.2

/-- The inner identifier in the error of `delete_remote_group`. -/
def innerIdText (mdbId : String) : String :=
  match LuaPattern.captures mdbIdPattern mdbId.toList with
  | some [_, _, innerId] => String.ofList innerId
  | _ => "nil"

/-- `delete_remote_group`. -/
def deleteRemoteGroup (mdbId : String) : G Unit := do
  let t ← get
  match t.named mdbId with
  | none => throw (.invalidValue (innerIdText mdbId) "MemberId")
  | some g => modify fun t => t.remove g

/-- The body of the loop of `update_privilege`, for the group at the key. -/
def demote (roles : ℕ → Bool) (roleId i : ℕ) : G Unit := do
  let t ← get
  match t.collection i with
  | none => pure ()
  | some g => onlyIf (decide (g.userRoleId = roleId)) do
    let g ← setRemoteGroupRoleId roles commonUser g
    modify fun t => { t with collection := Function.update t.collection i (some g) }

/-- `update_privilege`, where `keys` are the keys of the collection in the order of `pairs`. -/
def updatePrivilege (roles : ℕ → Bool) (keys : List ℕ) (roleId : ℕ) : G Unit :=
  keys.forM (demote roles roleId)

end Ldap

end BmcAccount
