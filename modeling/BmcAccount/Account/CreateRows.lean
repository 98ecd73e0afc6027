import BmcAccount.Account.Create
import BmcAccount.Account.Admin

/-!
# The rows of a new account

`new_account` enters the row of the account and its SNMP row into the database before the password
is checked and encrypted. The password validator is the only step after that whose failure is
cleaned up, by deleting the account row and the password history of the identifier. Where
encryption or the SNMP key fails, both rows stay, and no account of the collection has them.

The rows of the accounts of the collection are in their objects, so only the other rows are kept
beside the collection.
-/

open Raise

namespace BmcAccount

namespace Creation

/-! ## The database -/

/-- A row of the account table. -/
structure AccountRow where
  data : AccountData
  defaults : DefaultData

/-- The row of the account table with default columns. -/
def AccountRow.default : AccountRow where
  data := (Account.blank ⟨0, "", "", 0, 0, none, false, false⟩).data
  defaults := (Account.blank ⟨0, "", "", 0, 0, none, false, false⟩).defaults

/-- What `new_account` uses of the database and of the key management. A row that is entered where
there is one takes the columns that are not given from a row that the database chooses. -/
structure Services where
  accountBase : Option AccountRow → AccountRow
  snmpBase : Option SnmpUserInfo → Option Bool × Option Bool
  /-- `kmc_client:encrypt_password`, which may fail. -/
  encryptPassword : String → Option String
  accountBase_none : accountBase none = .default
  snmpBase_none : snmpBase none = (none, none)

/-- The rows whose identifiers no account of the collection has. -/
structure StrayRows where
  account : ℕ → Option AccountRow
  snmp : ℕ → Option SnmpUserInfo
  ipmi : ℕ → Option IpmiUserInfo
  history : ℕ → List HistoryRow

/-- The collection and the rows beside it. -/
structure World where
  state : State
  stray : StrayRows

namespace World

/-- `t_manager_account`. -/
def accountTable (w : World) (id : ℕ) : Option AccountRow :=
  match w.state.accounts.lookup id with
  | some a => some ⟨a.data, a.defaults⟩
  | none => w.stray.account id

/-- `t_snmp_user_info`. -/
def snmpTable (w : World) (id : ℕ) : Option SnmpUserInfo :=
  match w.state.accounts.lookup id with
  | some a => a.snmp
  | none => w.stray.snmp id

/-- `t_ipmi_user_info`. -/
def ipmiTable (w : World) (id : ℕ) : Option IpmiUserInfo :=
  match w.state.accounts.lookup id with
  | some a => some a.ipmi
  | none => w.stray.ipmi id

/-- `t_history_password`. -/
def historyTable (w : World) (id : ℕ) : List HistoryRow :=
  match w.state.accounts.lookup id with
  | some a => a.history
  | none => w.stray.history id

/-- Enter the row of an identifier into the account table, or delete it. -/
def putAccount (id : ℕ) (row : Option AccountRow) (w : World) : World :=
  { w with stray := { w.stray with account := Function.update w.stray.account id row } }

/-- Enter the row of an identifier into the SNMP table. -/
def putSnmp (id : ℕ) (row : SnmpUserInfo) (w : World) : World :=
  { w with stray := { w.stray with snmp := Function.update w.stray.snmp id (some row) } }

/-- `history_password:delete`. -/
def deleteHistory (id : ℕ) (w : World) : World :=
  { w with stray := { w.stray with history := Function.update w.stray.history id [] } }

/-- The rows of an identifier are now those of an account of the collection. -/
def adopt (id : ℕ) (w : World) : World :=
  { w with
    stray :=
      { account := Function.update w.stray.account id none
        snmp := Function.update w.stray.snmp id none
        ipmi := Function.update w.stray.ipmi id none
        history := Function.update w.stray.history id [] } }

end World

/-! ## New accounts -/

section

variable (sv : Services) (env : Env)

/-- The row that `new_ccount_to_db_and_mdb` enters into the account table. -/
def insertAccount (info : Account.Info) (old : Option AccountRow) : AccountRow :=
  { sv.accountBase old with
    data := { (sv.accountBase old).data with userName := info.name, roleId := info.roleId } }

/-- The row that `new_ccount_to_db_and_mdb` enters into the SNMP table: the password is in it. -/
def insertSnmp (info : Account.Info) (old : Option SnmpUserInfo) : SnmpUserInfo :=
  ⟨"", (sv.snmpBase old).1, .sha256, "", (sv.snmpBase old).2, .aes128, info.password,
    info.password, some true⟩

/-- The check of the password of a new account, by the validator of its kind. -/
def validate (cfg : Config) (info : Account.Info) (row : AccountRow) : Except Err Unit :=
  { Account.blank info with
    data := { row.data with accountType := (Account.blank info).data.accountType }
  }.passwordValidator env cfg info.name info.password true false

/-- `init_account_password`, and its part of `OEMAccount:init_account`. The hashes have been
written when the encryption fails. -/
def initAccountPassword (info : Account.Info) (d : AccountData) : AccountData × Except Err Unit :=
  let hash := Account.cryptPasswordByRandomSalt env env.randomBytes info.password
  if info.password = "" && !info.oem then
    ({ d with password := "", kdfPassword := some "", ipmiPassword := some "" }, .ok ())
  else if info.isPwdEncrypted then
    match History.saltOf info.password with
    | none => (d, .error .internalError)
    | some _ =>
      ({ d with
          password := info.password
          kdfPassword := if info.oem then some info.password else d.kdfPassword
          ipmiPassword := some "" }, .ok ())
  else
    match sv.encryptPassword info.password with
    | none => ({ d with password := hash, kdfPassword := some hash }, .error .internalError)
    | some cipher =>
      ({ d with password := hash, kdfPassword := some hash, ipmiPassword := some cipher }, .ok ())

/-- `init_account`. -/
def initAccount (info : Account.Info) (row : AccountRow) : AccountRow × Except Err Unit :=
  match initAccountPassword sv env info row.data with
  | (d, .error e) => ({ row with data := d }, .error e)
  | (d, .ok _) =>
    ({ row with
        data := { d with
          userName := info.name
          roleId := info.roleId
          sshPublicKeyHash := ""
          enabled := true
          locked := false
          deletable := true
          passwordChangeRequired := true
          lastLoginInterface := .invalid
          firstLoginPolicy := info.firstLoginPolicy.getD .forcePasswordReset
          accountType := if info.oem then .oem else .localUser
          loginInterface := info.interface
          loginRuleIds := 0
          passwordValidStartTime := env.now
          passwordExpiration := never
          withinMinPasswordDays := false
          lastLoginTime := never
          lastLoginIP := ""
          isOnline := if info.oem then d.isOnline else false } }, .ok ())

/-- `new_account_snmp_info`. -/
def newAccountSnmpInfo (row : SnmpUserInfo) : Option SnmpUserInfo :=
  match env.generateKu row.authenticationProtocol row.snmpKdfPassword with
  | none => none
  | some ku =>
    let hash := Account.cryptPasswordByRandomSalt env env.snmpRandomBytes row.snmpKdfPassword
    some { row with
      snmpPassword := hash
      snmpKdfPassword := hash
      authenticationKey := ku
      encryptionKey := ku }

/-- What follows once an account is initialised: it is entered into the collection, and nothing
raises. -/
def enterAccount (id roleId : ℕ) (a : Account) : M Unit := do
  modify fun s => { s with accounts := s.accounts.insert id (a.entered env s.config) }
  modify (State.newAccountChannels id roleId)
  updateAccount id (Account.updateInactiveUserStartTime env)
  updateDeletable
  updateWithinMinPasswordDaysStatus env

/-- The account object of the rows. -/
def object (info : Account.Info) (row : AccountRow) (snmp : SnmpUserInfo) : Account :=
  { Account.blank info with
    data := row.data
    defaults := row.defaults
    snmp := some snmp }

/-- `new_ccount_to_db_and_mdb`, with the rows that it enters. -/
def newAccountToDbAndMdb (id : ℕ) (info : Account.Info) (isIpmiOrSnmp : Bool) (w : World) :
    Except Err Unit × World :=
  let row := insertAccount sv info (w.stray.account id)
  match if isIpmiOrSnmp then .ok () else validate env w.state.config info row with
  | .error e => (.error e, ((w.putAccount id (some row)).putAccount id none).deleteHistory id)
  | .ok _ =>
    let snmp := insertSnmp sv info (w.stray.snmp id)
    let w₁ := (w.putAccount id (some row)).putSnmp id snmp
    match initAccount sv env info row with
    | (row', .error e) => (.error e, w₁.putAccount id (some row'))
    | (row', .ok _) =>
      let w₂ := w₁.putAccount id (some row')
      match newAccountSnmpInfo env snmp with
      | none => (.error .authAlgoNotSupport, w₂)
      | some snmp' =>
        (.ok (), { (w₂.adopt id) with
          state := after (enterAccount env id info.roleId (object info row' snmp')) w.state })

/-- `new_account`, with the rows that it enters. -/
def newAccount (info : Account.Info) (isIpmiOrSnmp : Bool) (w : World) : Except Err ℕ × World :=
  match env.checkUserName (if info.oem then .oem else .localUser) info.name with
  | none => (.error .indexNil, w)
  | some allowed =>
    if !allowed then (.error .invalidUserName, w)
    else if (env.roles info.roleId).isNone then (.error (.propertyValueNotInList .roleId), w)
    else
      match getValidAccountId w.state info.id info.oem with
      | .error e => (.error e, w)
      | .ok id =>
        if w.state.checkUsernameExist info.name then (.error .resourceAlreadyExists, w)
        else
          match newAccountToDbAndMdb sv env id info isIpmiOrSnmp w with
          | (.error e, w') => (.error e, w')
          | (.ok _, w') => (.ok id, w')

/-! ## What is promised -/

/-- The collection and the five tables are the same. -/
structure Unchanged (w w' : World) : Prop where
  collection : w'.state.accounts = w.state.accounts
  account : w'.accountTable = w.accountTable
  snmp : w'.snmpTable = w.snmpTable
  ipmi : w'.ipmiTable = w.ipmiTable
  channel : w'.state.channels = w.state.channels
  history : w'.historyTable = w.historyTable

/-- The call enters rows of an identifier: the name, the role and the identifier are allowed, and
the name is not taken. -/
structure Reaches (w : World) (info : Account.Info) (id : ℕ) : Prop where
  allowed : env.checkUserName (if info.oem then .oem else .localUser) info.name = some true
  role : (env.roles info.roleId).isSome = true
  valid : getValidAccountId w.state info.id info.oem = .ok id
  fresh : w.state.checkUsernameExist info.name = false

/-- The password is refused by the validator. -/
def refused (id : ℕ) (info : Account.Info) (isIpmiOrSnmp : Bool) (w : World) : Bool :=
  !isIpmiOrSnmp
    && !(validate env w.state.config info (insertAccount sv info (w.stray.account id))).isOk

/-- The password cannot be stored: it is said to be encrypted and has not the form of a hash, or
its encryption fails, or the SNMP key cannot be generated. -/
def unstorable (info : Account.Info) : Bool :=
  (!(info.password = "" && !info.oem)
      && if info.isPwdEncrypted then (History.saltOf info.password).isNone
        else (sv.encryptPassword info.password).isNone)
    || (env.generateKu .sha256 info.password).isNone

/-- The account row at the time when the password turns out not to be storable. -/
def leftAccount (id : ℕ) (info : Account.Info) (w : World) : AccountRow :=
  (initAccount sv env info (insertAccount sv info (w.stray.account id))).1

/-- The call raises and changes the tables. -/
inductive LeavesRows (w : World) (info : Account.Info) (isIpmiOrSnmp : Bool) : Prop where
  /-- The clean-up deletes rows that were there before. -/
  | refused (id : ℕ) (h : Reaches env w info id)
      (href : refused sv env id info isIpmiOrSnmp w = true)
      (hrow : w.stray.account id ≠ none ∨ w.stray.history id ≠ [])
  /-- There is no clean-up, unless the very rows were there before. -/
  | unstorable (id : ℕ) (h : Reaches env w info id)
      (href : refused sv env id info isIpmiOrSnmp w = false)
      (hfail : unstorable sv env info = true)
      (hrow : ¬ (w.stray.account id = some (leftAccount sv env id info w)
        ∧ w.stray.snmp id = some (insertSnmp sv info (w.stray.snmp id))))

/-! ## What is kept -/

namespace World

/-- Without an account of the identifier, its rows are the stray ones. -/
theorem accountTable_of_none {w : World} {id : ℕ} (h : w.state.accounts.lookup id = none) :
  w.accountTable id = w.stray.account id
  := by
  rw [accountTable, h]

theorem snmpTable_of_none {w : World} {id : ℕ} (h : w.state.accounts.lookup id = none) :
  w.snmpTable id = w.stray.snmp id
  := by
  rw [snmpTable, h]

theorem historyTable_of_none {w : World} {id : ℕ} (h : w.state.accounts.lookup id = none) :
  w.historyTable id = w.stray.history id
  := by
  rw [historyTable, h]

end World

/-- Where the collection stays and the identifier is free, the tables stay exactly if the stray
rows of the identifier do. -/
theorem unchanged_iff {w : World} {id : ℕ} (hfree : w.state.accounts.lookup id = none)
    (r : StrayRows) (haccount : ∀ i ≠ id, r.account i = w.stray.account i)
    (hsnmp : ∀ i ≠ id, r.snmp i = w.stray.snmp i) (hipmi : r.ipmi = w.stray.ipmi)
    (hhistory : ∀ i ≠ id, r.history i = w.stray.history i) :
  Unchanged w ⟨w.state, r⟩ ↔ r.account id = w.stray.account id ∧ r.snmp id = w.stray.snmp id
    ∧ r.history id = w.stray.history id
  := by
  constructor
  · intro h
    have ha := congrFun h.account id
    have hs := congrFun h.snmp id
    have hh := congrFun h.history id
    rw [World.accountTable_of_none (w := w) hfree,
      World.accountTable_of_none (w := ⟨w.state, r⟩) hfree] at ha
    rw [World.snmpTable_of_none (w := w) hfree,
      World.snmpTable_of_none (w := ⟨w.state, r⟩) hfree] at hs
    rw [World.historyTable_of_none (w := w) hfree,
      World.historyTable_of_none (w := ⟨w.state, r⟩) hfree] at hh
    exact ⟨ha, hs, hh⟩
  · rintro ⟨ha, hs, hh⟩
    have hr : r = w.stray := by
      obtain ⟨ra, rs, ri, rh⟩ := r
      obtain rfl : ra = w.stray.account := by
        funext i
        by_cases hi : i = id
        · rw [hi]
          exact ha
        · exact haccount i hi
      obtain rfl : rs = w.stray.snmp := by
        funext i
        by_cases hi : i = id
        · rw [hi]
          exact hs
        · exact hsnmp i hi
      obtain rfl : rh = w.stray.history := by
        funext i
        by_cases hi : i = id
        · rw [hi]
          exact hh
        · exact hhistory i hi
      obtain rfl : ri = w.stray.ipmi := hipmi
      rfl
    rw [hr]
    exact ⟨rfl, rfl, rfl, rfl, rfl, rfl⟩

/-- The password can be stored exactly if it is initialised and its SNMP key generated. -/
theorem unstorable_eq_false_iff (info : Account.Info) (row : AccountRow)
    (old : Option SnmpUserInfo) :
  unstorable sv env info = false ↔
    (∃ row', initAccount sv env info row = (row', .ok ()))
      ∧ ∃ snmp', newAccountSnmpInfo env (insertSnmp sv info old) = some snmp'
  := by
  have hkey : (env.generateKu .sha256 info.password).isNone = false
      ↔ ∃ snmp', newAccountSnmpInfo env (insertSnmp sv info old) = some snmp' := by
    rw [newAccountSnmpInfo, insertSnmp]
    cases env.generateKu .sha256 info.password <;> simp
  have hpassword : (!(info.password = "" && !info.oem)
      && if info.isPwdEncrypted then (History.saltOf info.password).isNone
        else (sv.encryptPassword info.password).isNone) = false
      ↔ ∃ row', initAccount sv env info row = (row', .ok ()) := by
    rw [initAccount, initAccountPassword]
    by_cases hempty : (info.password = "" && !info.oem) = true
    · simp [hempty]
    · cases info.isPwdEncrypted with
      | true => cases History.saltOf info.password <;> simp [hempty]
      | false => cases sv.encryptPassword info.password <;> simp [hempty]
  rw [unstorable, Bool.or_eq_false_iff, hkey, hpassword]

/-! ## One call -/

/-- A password that is refused takes the row and the history of the identifier with it. -/
theorem newAccountToDbAndMdb_refused {id : ℕ} {info : Account.Info} {isIpmiOrSnmp : Bool}
    {w : World} (h : refused sv env id info isIpmiOrSnmp w = true) :
  ∃ e, newAccountToDbAndMdb sv env id info isIpmiOrSnmp w
    = (.error e, (w.putAccount id none).deleteHistory id)
  := by
  rw [refused, Bool.and_eq_true, Bool.not_eq_true'] at h
  obtain ⟨rfl, hvalid⟩ := h
  rw [newAccountToDbAndMdb]
  cases hr : validate env w.state.config info (insertAccount sv info (w.stray.account id)) with
  | ok u => simp [hr, Except.isOk, Except.toBool] at hvalid
  | error e =>
    use e
    simp [World.putAccount]

theorem validate_of_not_refused {id : ℕ} {info : Account.Info} {isIpmiOrSnmp : Bool} {w : World}
    (h : refused sv env id info isIpmiOrSnmp w = false) :
  (if isIpmiOrSnmp then .ok ()
    else validate env w.state.config info (insertAccount sv info (w.stray.account id))) = .ok ()
  := by
  cases isIpmiOrSnmp with
  | true => rfl
  | false =>
    cases hr : validate env w.state.config info (insertAccount sv info (w.stray.account id)) with
    | ok u => rfl
    | error e => simp [refused, hr, Except.isOk, Except.toBool] at h

/-- A password that cannot be stored leaves both rows. -/
theorem newAccountToDbAndMdb_unstorable {id : ℕ} {info : Account.Info} {isIpmiOrSnmp : Bool}
    {w : World} (h : refused sv env id info isIpmiOrSnmp w = false)
    (hfail : unstorable sv env info = true) :
  ∃ e, newAccountToDbAndMdb sv env id info isIpmiOrSnmp w
    = (.error e, (w.putSnmp id (insertSnmp sv info (w.stray.snmp id))).putAccount id
        (some (leftAccount sv env id info w)))
  := by
  rw [newAccountToDbAndMdb, leftAccount]
  simp only [validate_of_not_refused sv env h]
  rcases hinit : initAccount sv env info (insertAccount sv info (w.stray.account id))
    with ⟨row', e | u⟩
  · use e
    simp [World.putAccount, World.putSnmp]
  · cases hkey : newAccountSnmpInfo env (insertSnmp sv info (w.stray.snmp id)) with
    | none =>
      use .authAlgoNotSupport
      simp [World.putAccount, World.putSnmp]
    | some snmp' =>
      have hstore := (unstorable_eq_false_iff sv env info _ _).mpr ⟨⟨row', hinit⟩, snmp', hkey⟩
      rw [hstore] at hfail
      cases hfail

/-- A password that is not refused and can be stored is stored. -/
theorem newAccountToDbAndMdb_ok {id : ℕ} {info : Account.Info} {isIpmiOrSnmp : Bool}
    {w : World} (h : refused sv env id info isIpmiOrSnmp w = false)
    (hstore : unstorable sv env info = false) :
  (newAccountToDbAndMdb sv env id info isIpmiOrSnmp w).1 = .ok ()
  := by
  obtain ⟨⟨row', hinit⟩, snmp', hkey⟩ := (unstorable_eq_false_iff sv env info
    (insertAccount sv info (w.stray.account id)) (w.stray.snmp id)).mp hstore
  rw [newAccountToDbAndMdb]
  simp only [validate_of_not_refused sv env h, hinit, hkey]

/-- A call changes nothing, or enters rows. -/
theorem newAccount_cases (info : Account.Info) (isIpmiOrSnmp : Bool) (w : World) :
  (∃ id, Reaches env w info id
      ∧ newAccount sv env info isIpmiOrSnmp w =
        ((newAccountToDbAndMdb sv env id info isIpmiOrSnmp w).1.map fun _ => id,
          (newAccountToDbAndMdb sv env id info isIpmiOrSnmp w).2))
    ∨ (newAccount sv env info isIpmiOrSnmp w).2 = w ∧ ∀ id, ¬ Reaches env w info id
  := by
  rw [newAccount]
  rcases hname : env.checkUserName (if info.oem then .oem else .localUser) info.name
    with _ | _ | _
  · refine .inr ⟨rfl, fun id h => ?_⟩
    simpa [hname] using h.allowed
  · refine .inr ⟨rfl, fun id h => ?_⟩
    simpa [hname] using h.allowed
  cases hrole : (env.roles info.roleId).isNone with
  | true =>
    refine .inr ⟨rfl, fun id h => ?_⟩
    simpa [Option.isNone_iff_eq_none.mp hrole] using h.role
  | false =>
    cases hvalid : getValidAccountId w.state info.id info.oem with
    | error e =>
      refine .inr ⟨rfl, fun id h => ?_⟩
      simpa [hvalid] using h.valid
    | ok id =>
      cases hfresh : w.state.checkUsernameExist info.name with
      | true =>
        refine .inr ⟨rfl, fun id h => ?_⟩
        simpa [hfresh] using h.fresh
      | false =>
        refine .inl ⟨id, ⟨hname, Option.isNone_eq_false_iff.mp hrole, hvalid, hfresh⟩, ?_⟩
        simp only [Bool.not_true, Bool.false_eq_true, if_false]
        rcases newAccountToDbAndMdb sv env id info isIpmiOrSnmp w with ⟨e | u, w'⟩ <;> rfl

/-- At most one identifier is reached. -/
theorem Reaches.unique {w : World} {info : Account.Info} {i j : ℕ} (hi : Reaches env w info i)
    (hj : Reaches env w info j) :
  i = j
  := Except.ok.inj (hi.valid.symm.trans hj.valid)

/-- Where the password is refused, rows are lost exactly if there were some. -/
theorem leavesRows_iff_of_refused {info : Account.Info} {isIpmiOrSnmp : Bool} {w : World} {id : ℕ}
    (h : Reaches env w info id) (href : refused sv env id info isIpmiOrSnmp w = true) :
  LeavesRows sv env w info isIpmiOrSnmp
    ↔ w.stray.account id ≠ none ∨ w.stray.history id ≠ []
  := by
  constructor
  · rintro (⟨j, hj, -, hrow⟩ | ⟨j, hj, hnot, -, -⟩)
    · obtain rfl := hj.unique env h
      exact hrow
    · obtain rfl := hj.unique env h
      rw [href] at hnot
      cases hnot
  · exact .refused id h href

/-- Where the password cannot be stored, rows are left exactly if others were there. -/
theorem leavesRows_iff_of_unstorable {info : Account.Info} {isIpmiOrSnmp : Bool} {w : World}
    {id : ℕ} (h : Reaches env w info id)
    (href : refused sv env id info isIpmiOrSnmp w = false)
    (hfail : unstorable sv env info = true) :
  LeavesRows sv env w info isIpmiOrSnmp
    ↔ ¬ (w.stray.account id = some (leftAccount sv env id info w)
        ∧ w.stray.snmp id = some (insertSnmp sv info (w.stray.snmp id)))
  := by
  constructor
  · rintro (⟨j, hj, hnot, -⟩ | ⟨j, hj, -, -, hrow⟩)
    · obtain rfl := hj.unique env h
      rw [href] at hnot
      cases hnot
    · obtain rfl := hj.unique env h
      exact hrow
  · exact .unstorable id h href hfail

/-- A call that raises changes nothing exactly if it leaves no rows. -/
theorem newAccount_unchanged_iff (info : Account.Info) (isIpmiOrSnmp : Bool) (w : World) :
  (∀ e, (newAccount sv env info isIpmiOrSnmp w).1 = .error e →
      Unchanged w (newAccount sv env info isIpmiOrSnmp w).2)
    ↔ ¬ LeavesRows sv env w info isIpmiOrSnmp
  := by
  rcases newAccount_cases sv env info isIpmiOrSnmp w with ⟨id, hreach, hcall⟩ | ⟨hsame, hreach⟩
  · have hfree := lookup_of_getValidAccountId hreach.valid
    rw [hcall]
    cases href : refused sv env id info isIpmiOrSnmp w with
    | true =>
      obtain ⟨e, hdb⟩ := newAccountToDbAndMdb_refused sv env href
      have hiff := unchanged_iff hfree ((w.putAccount id none).deleteHistory id).stray
        (fun i hi => Function.update_of_ne hi ..) (fun _ _ => rfl) rfl
        (fun i hi => Function.update_of_ne hi ..)
      have hraise : (∀ e', ((newAccountToDbAndMdb sv env id info isIpmiOrSnmp w).1.map
            fun _ => id) = .error e' →
          Unchanged w (newAccountToDbAndMdb sv env id info isIpmiOrSnmp w).2)
          ↔ Unchanged w ((w.putAccount id none).deleteHistory id) := by
        rw [hdb]
        exact ⟨fun h => h e rfl, fun h _ _ => h⟩
      rw [hraise, leavesRows_iff_of_refused sv env hreach href]
      refine hiff.trans ?_
      simp only [World.putAccount, World.deleteHistory, Function.update_self, true_and]
      push Not
      exact and_congr eq_comm eq_comm
    | false =>
      cases hfail : unstorable sv env info with
      | true =>
        obtain ⟨e, hdb⟩ := newAccountToDbAndMdb_unstorable sv env href hfail
        have hiff := unchanged_iff hfree
          ((w.putSnmp id (insertSnmp sv info (w.stray.snmp id))).putAccount id
            (some (leftAccount sv env id info w))).stray
          (fun i hi => Function.update_of_ne hi ..) (fun i hi => Function.update_of_ne hi ..) rfl
          (fun _ _ => rfl)
        have hraise : (∀ e', ((newAccountToDbAndMdb sv env id info isIpmiOrSnmp w).1.map
              fun _ => id) = .error e' →
            Unchanged w (newAccountToDbAndMdb sv env id info isIpmiOrSnmp w).2)
            ↔ Unchanged w ((w.putSnmp id (insertSnmp sv info (w.stray.snmp id))).putAccount id
              (some (leftAccount sv env id info w))) := by
          rw [hdb]
          exact ⟨fun h => h e rfl, fun h _ _ => h⟩
        rw [hraise, leavesRows_iff_of_unstorable sv env hreach href hfail, not_not]
        refine hiff.trans ?_
        simp only [World.putAccount, World.putSnmp, Function.update_self, and_true]
        exact and_congr eq_comm eq_comm
      | false =>
        have hdb := newAccountToDbAndMdb_ok sv env href hfail
        refine iff_of_true ?_ ?_
        · intro e he
          rw [hdb] at he
          cases he
        · rintro (⟨j, hj, hr, -⟩ | ⟨j, hj, -, hr, -⟩)
          · obtain rfl := hj.unique env hreach
            rw [href] at hr
            cases hr
          · rw [hfail] at hr
            cases hr
  · rw [hsame]
    refine iff_of_true (fun _ _ => ⟨rfl, rfl, rfl, rfl, rfl, rfl⟩) ?_
    rintro (⟨id, h, -, -⟩ | ⟨id, h, -, -, -⟩)
    · exact hreach id h
    · exact hreach id h

/-! ## The collection -/

/-- Without a row of the identifier, the default row is entered. -/
theorem insertAccount_none (info : Account.Info) :
  insertAccount sv info none = ⟨(Account.blank info).data, (Account.blank info).defaults⟩
  := by
  rw [insertAccount, sv.accountBase_none]
  rfl

/-- A default row is initialised as an account object is, as long as the encryption works. -/
theorem initAccount_blank {info : Account.Info}
    (hencrypt : sv.encryptPassword info.password = some (env.encryptPassword info.password)) :
  (∃ row e, initAccount sv env info (insertAccount sv info none) = (row, .error e)
      ∧ Account.initPassword env info = .error e)
    ∨ ∃ password kdf cipher, Account.initPassword env info = .ok (password, kdf, cipher)
      ∧ ∀ ku, initAccount sv env info (insertAccount sv info none)
        = (⟨(Account.initial env info password kdf cipher ku).data,
            (Account.initial env info password kdf cipher ku).defaults⟩, .ok ())
  := by
  have honline : (if info.oem = true then (Account.blank info).data.isOnline else false) = false :=
    ite_self false
  rw [insertAccount_none, initAccount, initAccountPassword, Account.initPassword]
  by_cases hempty : (info.password = "" && !info.oem) = true
  · simp only [hempty, if_true, honline]
    exact .inr ⟨_, _, _, rfl, fun _ => rfl⟩
  · rw [Bool.not_eq_true] at hempty
    simp only [hempty, Bool.false_eq_true, if_false]
    cases info.isPwdEncrypted with
    | true =>
      cases hsalt : History.saltOf info.password with
      | none => exact .inl ⟨_, _, rfl, rfl⟩
      | some salt =>
        simp only [if_true, honline]
        exact .inr ⟨_, _, _, rfl, fun _ => rfl⟩
    | false =>
      simp only [hencrypt, Bool.false_eq_true, if_false, honline]
      exact .inr ⟨_, _, _, rfl, fun _ => rfl⟩

/-- Without stray rows of the identifier, the collection gets the account that it gets from
`new_ccount_to_db_and_mdb`. -/
theorem newAccountToDbAndMdb_state {id : ℕ} {info : Account.Info} (isIpmiOrSnmp : Bool) {w : World}
    (haccount : w.stray.account id = none) (hsnmp : w.stray.snmp id = none)
    (hencrypt : sv.encryptPassword info.password = some (env.encryptPassword info.password)) :
  ((newAccountToDbAndMdb sv env id info isIpmiOrSnmp w).1,
      (newAccountToDbAndMdb sv env id info isIpmiOrSnmp w).2.state)
    = exec (BmcAccount.newAccountToDbAndMdb env id info isIpmiOrSnmp) w.state
  := by
  have hvalid : validate env w.state.config info (insertAccount sv info none)
      = (Account.blank info).passwordValidator env w.state.config info.name info.password true
        false := by
    rw [insertAccount_none]
    rfl
  have hrequire : ∀ r, exec (onlyIf (!isIpmiOrSnmp) (require r)) w.state
      = (if isIpmiOrSnmp then .ok () else r, w.state) := by
    intro r
    cases isIpmiOrSnmp <;> cases r <;> rfl
  have hkey : newAccountSnmpInfo env (insertSnmp sv info none)
      = (env.generateKu .sha256 info.password).map fun ku =>
          let hash := Account.cryptPasswordByRandomSalt env env.snmpRandomBytes info.password
          ⟨ku, none, .sha256, ku, none, .aes128, hash, hash, some true⟩ := by
    rw [newAccountSnmpInfo, insertSnmp, sv.snmpBase_none]
    cases env.generateKu .sha256 info.password <;> rfl
  rw [newAccountToDbAndMdb]
  unfold BmcAccount.newAccountToDbAndMdb
  rw [exec_bind_ok (exec_get _), exec_bind, hrequire]
  simp only [hvalid, haccount, hsnmp, hkey, Account.init]
  cases (if isIpmiOrSnmp then .ok () else (Account.blank info).passwordValidator env w.state.config
    info.name info.password true false) with
  | error e => rfl
  | ok u =>
    rcases initAccount_blank sv env hencrypt with ⟨row, e, hrow, hpassword⟩
      | ⟨p, k, c, hpassword, hrow⟩
    · simp only [hrow, hpassword]
      rfl
    · cases hku : env.generateKu .sha256 info.password with
      | none =>
        simp only [hrow "", hpassword]
        rfl
      | some ku =>
        simp only [hrow ku, hpassword]
        rfl

/-- Without stray rows, and where the encryption does not fail, the collection gets the account
that `new_account` gives it. -/
theorem newAccount_state {info : Account.Info} (isIpmiOrSnmp : Bool) {w : World}
    (hstray : ∀ id, w.stray.account id = none ∧ w.stray.snmp id = none)
    (hencrypt : sv.encryptPassword info.password = some (env.encryptPassword info.password)) :
  ((newAccount sv env info isIpmiOrSnmp w).1, (newAccount sv env info isIpmiOrSnmp w).2.state)
    = exec (BmcAccount.newAccount env info isIpmiOrSnmp) w.state
  := by
  rw [newAccount]
  unfold BmcAccount.newAccount
  rcases hname : env.checkUserName (if info.oem then .oem else .localUser) info.name
    with _ | _ | _
  · rfl
  · rfl
  cases hrole : (env.roles info.roleId).isNone with
  | true => rfl
  | false =>
    simp only [Bool.not_true, Bool.false_eq_true, if_false]
    rw [exec_bind_ok (exec_refuse_false _ _), exec_bind_ok (exec_refuse_false _ _),
      exec_bind_ok (exec_get _)]
    cases hvalid : getValidAccountId w.state info.id info.oem with
    | error e => rfl
    | ok id =>
      cases hfresh : w.state.checkUsernameExist info.name with
      | true => rfl
      | false =>
        have hdb := newAccountToDbAndMdb_state sv env isIpmiOrSnmp (hstray id).1 (hstray id).2
          hencrypt
        simp only [Bool.false_eq_true, if_false]
        rw [exec_bind_ok (exec_refuse_false _ _), exec_bind, ← hdb]
        rcases newAccountToDbAndMdb sv env id info isIpmiOrSnmp w with ⟨e | u, w'⟩ <;> rfl

end

/-! ## A password that is not a hash -/

/-- A database that keeps the columns that are not given. -/
def plainServices : Services where
  accountBase old := old.getD .default
  snmpBase old := (old.bind (·.authenticationKeySet), old.bind (·.encryptionKeySet))
  encryptPassword := some
  accountBase_none := rfl
  snmpBase_none := rfl

/-- An account of an equipment manufacturer; its password should be a hash. -/
def oemInfo : Account.Info :=
  ⟨0, "oem1", "abc", 4, 223, none, true, true⟩

/-- One administrator, and no stray rows. -/
def plainRows : World where
  state := plainState [(2, plainAccount "Administrator" 4 223)]
  stray := ⟨fun _ => none, fun _ => none, fun _ => none, fun _ => []⟩

/-- The call raises, and there is a row of the identifier that it has chosen. -/
theorem newAccount_oemInfo_changes :
  ¬ ∀ e, (newAccount plainServices plainEnv oemInfo false plainRows).1 = .error e →
    Unchanged plainRows (newAccount plainServices plainEnv oemInfo false plainRows).2
  := by
  intro h
  have hraise : (newAccount plainServices plainEnv oemInfo false plainRows).1
      = .error .internalError := by
    decide +kernel
  have hrow := congrArg Option.isSome (congrFun (h _ hraise).account 101)
  revert hrow
  decide +kernel

end Creation

end BmcAccount
