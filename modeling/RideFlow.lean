import RideFlow.DoubleBooking
import RideFlow.PassengerSeparation
import RideFlow.TokenRotation
import RideFlow.EventOrder
import RideFlow.OutboxDrain
import RideFlow.StaleSweep
import RideFlow.PoolFreshness
import RideFlow.DriverSearch
import RideFlow.ReservationOwners
import RideFlow.ExclusiveReservations
import RideFlow.ReservationRelease
import RideFlow.ReservationCalls
import RideFlow.MatchingRest
import RideFlow.GeoRequests
import RideFlow.Fare
import RideFlow.GatewayPrivacy
import RideFlow.RateLimit
import RideFlow.MigrationAgreement
import RideFlow.EnumValues
import RideFlow.Linearizability
import RideFlow.ServerProgress
import RideFlow.RideLists
import RideFlow.ReplayWindow
import RideFlow.LiveUpdates
import RideFlow.JsonTexts
import RideFlow.Sessions
import RideFlow.SignedOut
import RideFlow.LimitedServer
