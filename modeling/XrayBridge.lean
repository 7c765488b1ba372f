import XrayBridge.Proof.CacheHistory
import XrayBridge.Proof.Interference
import XrayBridge.Proof.Server
import XrayBridge.Proof.Authentication
import XrayBridge.Proof.Envelope
import XrayBridge.Proof.Counters
import XrayBridge.Proof.Labels
import XrayBridge.Proof.Bearer
import XrayBridge.Proof.Startup
import XrayBridge.Proof.Ports
import XrayBridge.Proof.CacheLog
import XrayBridge.Proof.MissingResource
import XrayBridge.Proof.Users
import XrayBridge.Proof.Configs
import XrayBridge.Lib.RemovalLog
import XrayBridge.Proof.Removal
import XrayBridge.Proof.ChangeLog
import XrayBridge.Proof.Metering
import XrayBridge.Proof.Channels
import XrayBridge.Proof.Secrecy
import XrayBridge.Proof.Routes
import XrayBridge.Proof.Permissions
