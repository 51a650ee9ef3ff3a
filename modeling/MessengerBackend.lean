import MessengerBackend.Lib.ByteString
import MessengerBackend.Lib.Interleave
import MessengerBackend.Lib.Runs
import MessengerBackend.Lib.Assoc
import MessengerBackend.Lib.Table
import MessengerBackend.Lib.Reference
import MessengerBackend.Lib.Select
import MessengerBackend.Lib.Keyset
import MessengerBackend.Lib.Like
import MessengerBackend.Lib.Find
import MessengerBackend.Lib.Stoi
import MessengerBackend.Lib.Aead
import MessengerBackend.Json
import MessengerBackend.Uuid
import MessengerBackend.Dump
import MessengerBackend.PgDb
import MessengerBackend.Database
import MessengerBackend.Sql
import MessengerBackend.Redis.Hiredis
import MessengerBackend.Redis.Server
import MessengerBackend.Redis.Plain
import MessengerBackend.Auth.Otp
import MessengerBackend.Auth.OtpSteps
import MessengerBackend.Auth.OtpBound
import MessengerBackend.Auth.OtpFresh
import MessengerBackend.Auth.Registration
import MessengerBackend.Auth.Jwt
import MessengerBackend.Auth.Session
import MessengerBackend.Auth.Token
import MessengerBackend.Auth.Spelling
import MessengerBackend.Auth.Base64url
import MessengerBackend.Auth.Outage
import MessengerBackend.Auth.Lifetime
import MessengerBackend.E2E.WireFormat
import MessengerBackend.E2E.Hex
import MessengerBackend.E2E.Encryption
import MessengerBackend.E2E.Agreement
import MessengerBackend.E2E.Integrity
import MessengerBackend.E2E.RoundTrip
import MessengerBackend.E2E.Counters
import MessengerBackend.E2E.Ratchet
import MessengerBackend.E2E.KeyAgreement
import MessengerBackend.E2E.KeyHex
import MessengerBackend.E2E.Separation
import MessengerBackend.E2E.Signature
import MessengerBackend.Api.Queries
import MessengerBackend.Api.Confidentiality
import MessengerBackend.Api.Privacy
import MessengerBackend.Api.Handlers
import MessengerBackend.Api.Accounts
import MessengerBackend.Api.Chats
import MessengerBackend.Api.Channels
import MessengerBackend.Api.Server
import MessengerBackend.Api.Authority
import MessengerBackend.Api.PrivateChats
import MessengerBackend.Api.Creation
import MessengerBackend.Api.Subscribers
import MessengerBackend.Api.Roles
import MessengerBackend.Api.DirectChats
import MessengerBackend.Api.Reactions
import MessengerBackend.Api.Profile
import MessengerBackend.Api.Effects
import MessengerBackend.Api.Groups
import MessengerBackend.Api.Search
import MessengerBackend.Api.Bodies
import MessengerBackend.Api.Pages
import MessengerBackend.Settings
import MessengerBackend.Ws.Connection
import MessengerBackend.Ws.Server
import MessengerBackend.Ws.Registry
import MessengerBackend.Ws.Index
import MessengerBackend.Ws.Sockets
import MessengerBackend.Ws.Routing
import MessengerBackend.Redis.Encoding
import MessengerBackend.Redis.Pool
import MessengerBackend.Redis.Delivery
import MessengerBackend.Redis.Report
import MessengerBackend.Ws.Acknowledge
import MessengerBackend.Redis.Borrow
import MessengerBackend.Redis.Handles
import MessengerBackend.Ws.Attribution
import MessengerBackend.Ws.Presence
import MessengerBackend.Ws.RatchetMutex
import MessengerBackend.Ws.Cleanup
import MessengerBackend.Ws.Queue
import MessengerBackend.Lib.History
import MessengerBackend.HttpApi.Server
import MessengerBackend.HttpApi.Effects
import MessengerBackend.HttpApi.Mediation
import MessengerBackend.HttpApi.Integrity
import MessengerBackend.HttpApi.Permanence
import MessengerBackend.HttpApi.Ownership
import MessengerBackend.HttpApi.Answers
import MessengerBackend.HttpApi.Contacts
import MessengerBackend.HttpApi.Membership
import MessengerBackend.HttpApi.Access
import MessengerBackend.HttpApi.Pins
import MessengerBackend.Redis.Keyspace
import MessengerBackend.Redis.Reading
import MessengerBackend.Redis.Meaning
import MessengerBackend.Redis.Refinement
import MessengerBackend.Ws.Conversation
import MessengerBackend.Ws.Malformed
import MessengerBackend.Lib.Isolation
import MessengerBackend.Auth.Isolation
import MessengerBackend.HttpApi.Origin
import MessengerBackend.HttpApi.Bearer
import MessengerBackend.HttpApi.Channels
import MessengerBackend.HttpApi.Profile
import MessengerBackend.HttpApi.Progress
import MessengerBackend.HttpApi.Migrations
