import WolfTrust.GateIsolation
import WolfTrust.FfmTypestate
import WolfTrust.FfmCapabilities
import WolfTrust.FfmContainment
import WolfTrust.SpmConfinement
import WolfTrust.SpmIsolation
import WolfTrust.StorageSeparation
import WolfTrust.FwuStaging
import WolfTrust.Rollback
import WolfTrust.GuestCurtain
import WolfTrust.FfmRouting
import WolfTrust.FfmCloses
import WolfTrust.FfmSticky
import WolfTrust.VnetDelivery
import WolfTrust.IpcVectors
import WolfTrust.FwuProgramming
import WolfTrust.VnetOwnership
import WolfTrust.FlashProtection
import WolfTrust.MutexOwnership
import WolfTrust.MonitorFairness
import WolfTrust.SpRecovery
import WolfTrust.RunQueue
