import BmcAccount.Lib.Raise
import BmcAccount.Lib.Run
import BmcAccount.Lib.Table
import BmcAccount.Lib.Keyed
import BmcAccount.Lib.Roster
import BmcAccount.Lib.LuaTable
import BmcAccount.Lib.LuaPattern
import BmcAccount.Lib.Fields
import BmcAccount.Lib.Inet
import BmcAccount.Lib.Ipv6Text
import BmcAccount.Lib.Search
import BmcAccount.Lib.Kahn
import BmcAccount.Lib.LuaNumber
import BmcAccount.Lib.OldestLog
import BmcAccount.Lib.RecentLog
import BmcAccount.Lib.Sweep
import BmcAccount.Lib.Reconcile
import BmcAccount.Lib.CString
import BmcAccount.Account.Types
import BmcAccount.Account.History
import BmcAccount.Account.Object
import BmcAccount.Account.Collection
import BmcAccount.Account.Admin
import BmcAccount.Account.Inactive
import BmcAccount.Account.Create
import BmcAccount.Account.Recover
import BmcAccount.Account.RecoverAdmin
import BmcAccount.Account.Emergency
import BmcAccount.Account.Password
import BmcAccount.Account.UserAccess
import BmcAccount.Account.View
import BmcAccount.Account.Permanent
import BmcAccount.Account.Expiry
import BmcAccount.Account.Roles
import BmcAccount.Account.RoleRemoval
import BmcAccount.Account.Secrets
import BmcAccount.Account.SnmpKeys
import BmcAccount.Account.Reset
import BmcAccount.Account.Names
import BmcAccount.Account.Authentication
import BmcAccount.Account.Rmcp
import BmcAccount.Account.Exemption
import BmcAccount.Account.Clock
import BmcAccount.Account.AllOrNothing
import BmcAccount.Account.Deletable
import BmcAccount.Account.Rows
import BmcAccount.Account.Restore
import BmcAccount.Account.PasswordPolicy
import BmcAccount.Account.CreateRows
import BmcAccount.Account.WeakDictionary
import BmcAccount.Account.Authority
import BmcAccount.Ipmi.ChannelMappings
import BmcAccount.Ipmi.ChannelMigration
import BmcAccount.Ipmi.ChunkedRead
import BmcAccount.Ipmi.LdapConfig
import BmcAccount.Lockout.Settings
import BmcAccount.Lockout.Tally
import BmcAccount.Lockout.Service
import BmcAccount.Lockout.Forget
import BmcAccount.Lockout.TestPassword
import BmcAccount.Lockout.IpLock
import BmcAccount.Lockout.Spelling
import BmcAccount.Sessions.Redfish
import BmcAccount.Sessions.Login
import BmcAccount.Sessions.Service
import BmcAccount.Sessions.Effects
import BmcAccount.Sessions.Exclusive
import BmcAccount.Sessions.Console
import BmcAccount.Sessions.Whitelist
import BmcAccount.Sessions.LdapUid
import BmcAccount.Sessions.EmptyPassword
import BmcAccount.Sessions.AccountCache
import BmcAccount.Sessions.SsoClient
import BmcAccount.Sessions.ClearKvm
import BmcAccount.Sessions.Ledger
import BmcAccount.Sessions.Registry
import BmcAccount.Sessions.Removals
import BmcAccount.Sessions.Creations
import BmcAccount.Sessions.CliPass
import BmcAccount.Sessions.RegistryRuns
import BmcAccount.Sessions.CliMirror
import BmcAccount.Sessions.LogoutTypes
import BmcAccount.LoginRule.Time
import BmcAccount.LoginRule.Grammar
import BmcAccount.LoginRule.Address
import BmcAccount.LoginRule.Subnet
import BmcAccount.LoginRule.Engines
import BmcAccount.LoginRule.Agree
import BmcAccount.Ldap.GroupSearch
import BmcAccount.Ldap.Resolve
import BmcAccount.Ldap.Authorise
import BmcAccount.Ldap.GroupTable
import BmcAccount.Ldap.GroupTableLaw
import BmcAccount.Ldap.Escape
import BmcAccount.Ldap.UserSearch
import BmcAccount.Ldap.ParseInfo
import BmcAccount.Ldap.BindDn
import BmcAccount.Ldap.Bind
import BmcAccount.Ldap.CompareDn
import BmcAccount.Linux.Records
import BmcAccount.Linux.Pam
import BmcAccount.Linux.Codec
import BmcAccount.Linux.Files
import BmcAccount.Linux.Users
import BmcAccount.Linux.Edits
import BmcAccount.Linux.Frame
import BmcAccount.Linux.Groups
import BmcAccount.Linux.Flush
import BmcAccount.Linux.UserFiles
import BmcAccount.Linux.Members
import BmcAccount.Linux.Agreement
import BmcAccount.Linux.Idempotence
import BmcAccount.Linux.LoginModule
import BmcAccount.Linux.ServiceLogin
import BmcAccount.Utils.TopoSort
import BmcAccount.Utils.Ipv6
import BmcAccount.Sessions.Revocation
import BmcAccount.Lib.Edges
import BmcAccount.Lockout.AccessService
import BmcAccount.Lib.KeyedView
import BmcAccount.Linux.Tells
import BmcAccount.Linux.Held
import BmcAccount.Linux.Incremental
import BmcAccount.Lib.Mirror
import BmcAccount.LoginRule.Setting
import BmcAccount.LoginRule.Cache
import BmcAccount.LoginRule.CacheRuns
import BmcAccount.Sessions.AccountMirror
import BmcAccount.Lib.Profile
import BmcAccount.Account.RoleProfile
import BmcAccount.LoginRule.RuleProfile
